import Mathlib
import Chmicro.ListSet
import Chmicro.Metrics

set_option autoImplicit false

namespace Chmicro

/-- The hash function stands for that of the standard library. -/
structure ShardedKvStore (hash : Bytes → Nat) where
  shards : Nat
  table : List (NodeMap Bytes Bytes)
  sized : table.length = shards
  positive : 0 < shards

namespace ShardedKvStore

variable {hash : Bytes → Nat}

def new (shards : Nat) : ShardedKvStore hash where
  shards := if shards = 0 then 1 else shards
  table := List.replicate (if shards = 0 then 1 else shards) .empty
  sized := List.length_replicate
  positive := by split <;> omega

def shardIndex (store : ShardedKvStore hash) (key : Bytes) : Nat := hash key % store.shards

theorem shardIndex_lt (store : ShardedKvStore hash) (key : Bytes) :
    store.shardIndex key < store.table.length := by
  rw [store.sized]
  exact Nat.mod_lt _ store.positive

def shard (store : ShardedKvStore hash) (key : Bytes) : NodeMap Bytes Bytes :=
  store.table.get ⟨store.shardIndex key, store.shardIndex_lt key⟩

def put (store : ShardedKvStore hash) (key value : Bytes) : ShardedKvStore hash where
  shards := store.shards
  table := store.table.modify (store.shardIndex key) (·.assign key value)
  sized := by rw [List.length_modify, store.sized]
  positive := store.positive

/-- The value is written to a variable of the caller's. -/
def get (store : ShardedKvStore hash) (key outValue : Bytes) : Bool × Bytes :=
  match (store.shard key).get? key with
  | none => (false, outValue)
  | some value => (true, value)

def size (store : ShardedKvStore hash) : Nat :=
  store.table.foldl (fun total shard => total + shard.nodes.length) 0

section Put

variable (store : ShardedKvStore hash) (key value : Bytes)

theorem getElem?_shard : store.table[store.shardIndex key]? = some (store.shard key) :=
  List.getElem?_eq_getElem (store.shardIndex_lt key)

/-- The shard of a key, after a put. -/
theorem shard_put (other : Bytes) :
    (store.put key value).shard other =
      if store.shardIndex key = store.shardIndex other then (store.shard other).assign key value
      else store.shard other := by
  have found := (store.put key value).getElem?_shard other
  have place : (store.put key value).shardIndex other = store.shardIndex other := rfl
  have table : (store.put key value).table =
      store.table.modify (store.shardIndex key) (·.assign key value) := rfl
  rw [place, table, List.getElem?_modify, store.getElem?_shard] at found
  exact (Option.some.inj found).symm

theorem get?_put_self : ((store.put key value).shard key).get? key = some value := by
  rw [shard_put, if_pos rfl]
  exact NodeMap.get?_assign_self _ key value

theorem get?_put_ne {other : Bytes} (different : key ≠ other) :
    ((store.put key value).shard other).get? other = (store.shard other).get? other := by
  rw [shard_put]
  split
  · exact NodeMap.get?_assign_ne _ different value
  · rfl

theorem size_eq_sum : store.size = (store.table.map (·.nodes.length)).sum := by
  have fold (table : List (NodeMap Bytes Bytes)) (total : Nat) :
      table.foldl (fun total shard => total + shard.nodes.length) total =
        total + (table.map (·.nodes.length)).sum := by
    induction table generalizing total with
    | nil => rfl
    | cons shard rest ih =>
        rw [List.foldl_cons, ih, List.map_cons, List.sum_cons, Nat.add_assoc]
  rw [size, fold, Nat.zero_add]

theorem size_put : (store.put key value).size =
    store.size + if ((store.shard key).get? key).isSome then 0 else 1 := by
  have here := store.getElem?_shard key
  have table : (store.put key value).table =
      store.table.set (store.shardIndex key) ((store.shard key).assign key value) := by
    show store.table.modify _ _ = _
    rw [List.modify_eq_set_getElem?, here]
    rfl
  have sums := ListSet.sum_map_set_add (·.nodes.length) here ((store.shard key).assign key value)
  have grown := (store.shard key).length_assign key value
  rw [size_eq_sum, size_eq_sum, table]
  omega

end Put

section Calls

inductive Call where
  | put (key value : Bytes)
  | get (key outValue : Bytes)
  | size

inductive Reply where
  | stored
  | got (found : Bool) (outValue : Bytes)
  | size (total : Nat)
  deriving DecidableEq

def replies : ShardedKvStore hash → List Call → List Reply
  | _, [] => []
  | store, .put key value :: rest => .stored :: replies (store.put key value) rest
  | store, .get key outValue :: rest =>
      let (found, outValue) := store.get key outValue
      .got found outValue :: replies store rest
  | store, .size :: rest => .size store.size :: replies store rest

/-- The replies of one plain map, from the puts made so far, the last one first. -/
def plainReplies : List (Bytes × Bytes) → List Call → List Reply
  | _, [] => []
  | puts, .put key value :: rest => .stored :: plainReplies ((key, value) :: puts) rest
  | puts, .get key outValue :: rest =>
      .got (puts.lookup key).isSome ((puts.lookup key).getD outValue) :: plainReplies puts rest
  | puts, .size :: rest => .size (puts.map Prod.fst).dedup.length :: plainReplies puts rest

/-- A store that holds what was put, each key once. -/
structure Holds (store : ShardedKvStore hash) (puts : List (Bytes × Bytes)) : Prop where
  value : ∀ key, (store.shard key).get? key = puts.lookup key
  size : store.size = (puts.map Prod.fst).dedup.length

theorem lookup_isSome (puts : List (Bytes × Bytes)) (key : Bytes) :
    (puts.lookup key).isSome ↔ key ∈ puts.map Prod.fst := by
  induction puts with
  | nil => simp
  | cons entry rest ih =>
      rw [List.lookup_cons, List.map_cons, List.mem_cons]
      by_cases same : key = entry.1
      · rw [beq_iff_eq.mpr same]
        exact ⟨fun _ => .inl same, fun _ => rfl⟩
      · rw [beq_eq_false_iff_ne.mpr same, or_iff_right same]
        exact ih

theorem shard_new (shards : Nat) (key : Bytes) : (@new hash shards).shard key = .empty := by
  have found := (@new hash shards).getElem?_shard key
  exact List.eq_of_mem_replicate (List.mem_of_getElem? found)

theorem holds_new (shards : Nat) : Holds (@new hash shards) [] := by
  constructor
  · intro key
    rw [shard_new]
    rfl
  · rw [size_eq_sum]
    show ((List.replicate _ NodeMap.empty).map (·.nodes.length)).sum = 0
    rw [List.map_replicate, List.sum_replicate]
    exact Nat.mul_zero _

theorem Holds.put {store : ShardedKvStore hash} {puts : List (Bytes × Bytes)}
    (holds : Holds store puts) (key value : Bytes) :
    Holds (store.put key value) ((key, value) :: puts) := by
  constructor
  · intro other
    by_cases same : key = other
    · subst same
      rw [get?_put_self, List.lookup_cons_self]
    · have later : puts.lookup other = ((key, value) :: puts).lookup other := by
        rw [List.lookup_cons, beq_eq_false_iff_ne.mpr (Ne.symm same)]
      rw [store.get?_put_ne key value same, holds.value other, later]
  · rw [size_put, holds.value key, holds.size, List.map_cons]
    by_cases known : key ∈ puts.map Prod.fst
    · rw [if_pos ((lookup_isSome puts key).mpr known), List.dedup_cons_of_mem known, Nat.add_zero]
    · rw [if_neg ((lookup_isSome puts key).not.mpr known), List.dedup_cons_of_notMem known,
        List.length_cons]

theorem Holds.get {store : ShardedKvStore hash} {puts : List (Bytes × Bytes)}
    (holds : Holds store puts) (key outValue : Bytes) :
    store.get key outValue =
      ((puts.lookup key).isSome, (puts.lookup key).getD outValue) := by
  rw [ShardedKvStore.get, holds.value key]
  cases puts.lookup key <;> rfl

theorem Holds.replies {store : ShardedKvStore hash} {puts : List (Bytes × Bytes)}
    (holds : Holds store puts) (calls : List Call) :
    store.replies calls = plainReplies puts calls := by
  induction calls generalizing store puts with
  | nil => rfl
  | cons call rest ih =>
      cases call with
      | put key value =>
          rw [ShardedKvStore.replies, plainReplies, ih (holds.put key value)]
      | get key outValue =>
          rw [ShardedKvStore.replies, plainReplies, holds.get key outValue, ih holds]
      | size =>
          rw [ShardedKvStore.replies, plainReplies, holds.size, ih holds]

theorem sharding_invisible (hash : Bytes → Nat) (shards : Nat) (calls : List Call) :
    (@new hash shards).replies calls = plainReplies [] calls :=
  (holds_new shards).replies calls

end Calls

end ShardedKvStore

end Chmicro
