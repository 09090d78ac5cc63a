import Chmicro.KvStore
import Chmicro.Linearization
import Chmicro.Transition

set_option autoImplicit false

namespace Chmicro.ShardedKvStore

open Transition Linearization

/-- Where a call stands. `Put` and `Get` hold the lock of one shard once, and `Size` holds the
locks of all shards one after another. -/
inductive CallPc where
  | enter
  | counting (index total : Nat)
  | returned
  deriving DecidableEq, Repr

structure KvCall where
  call : Call
  began : Nat
  pc : CallPc

/-- A store that threads share, with the calls they have made. The source keeps neither the
count of steps nor the history of the calls that returned. -/
structure KvThreads (hash : Bytes → Nat) where
  store : ShardedKvStore hash
  clock : Nat := 0
  calls : List KvCall := []
  history : List (Record Call Reply) := []

def CallPc.first : Call → CallPc
  | .put _ _ | .get _ _ => .enter
  | .size => .counting 0 0

section Steps

variable {hash : Bytes → Nat}

/-- The next critical section of a call, and its reply when it returns. -/
def stepCall (store : ShardedKvStore hash) :
    Call → CallPc → Option (ShardedKvStore hash × CallPc × Option Reply)
  | .put key value, .enter => some (store.put key value, .returned, some .stored)
  | .get key outValue, .enter =>
      let (found, outValue) := store.get key outValue
      some (store, .returned, some (.got found outValue))
  | .size, .counting index total =>
      match store.table[index]? with
      | some shard => some (store, .counting (index + 1) (total + shard.nodes.length), none)
      | none => some (store, .returned, some (.size total))
  | _, _ => none

namespace KvThreads

inductive Action where
  | call (call : Call)
  | step (index : Nat)

def start (shards : Nat) : KvThreads hash where
  store := .new shards

def step (threads : KvThreads hash) : Action → Option (KvThreads hash)
  | .call call => some { threads with
      clock := threads.clock + 1
      calls := threads.calls ++ [⟨call, threads.clock, .first call⟩] }
  | .step index =>
      (threads.calls[index]?).bind fun running =>
        (threads.store.stepCall running.call running.pc).map fun (store, pc, reply) =>
          { store
            clock := threads.clock + 1
            calls := threads.calls.set index { running with pc }
            history := threads.history ++ reply.toList.map fun reply =>
              ⟨running.call, reply, running.began, threads.clock⟩ }

end KvThreads

/-- The store as an object that takes its calls one at a time. -/
def apply (store : ShardedKvStore hash) : Call → Reply × ShardedKvStore hash
  | .put key value => (.stored, store.put key value)
  | .get key outValue => (.got (store.get key outValue).1 (store.get key outValue).2, store)
  | .size => (.size store.size, store)

/-- The one plain map as such an object, from the puts made so far. -/
def plainApply (puts : List (Bytes × Bytes)) : Call → Reply × List (Bytes × Bytes)
  | .put key value => (.stored, (key, value) :: puts)
  | .get key outValue =>
      (.got (puts.lookup key).isSome ((puts.lookup key).getD outValue), puts)
  | .size => (.size (puts.map Prod.fst).dedup.length, puts)

def Call.writes : Call → Bool
  | .put _ _ => true
  | .get _ _ | .size => false

theorem apply_reads (store : ShardedKvStore hash) (call : Call) (reads : call.writes = false) :
    (store.apply call).2 = store := by
  cases call with
  | put key value => cases reads
  | get key outValue => rfl
  | size => rfl

theorem Holds.apply {store : ShardedKvStore hash} {puts : List (Bytes × Bytes)}
    (holds : Holds store puts) (call : Call) :
    (store.apply call).1 = (plainApply puts call).1 ∧
      Holds (store.apply call).2 (plainApply puts call).2 := by
  cases call with
  | put key value => exact ⟨rfl, holds.put key value⟩
  | get key outValue =>
      refine ⟨?_, holds⟩
      rw [ShardedKvStore.apply, plainApply, holds.get key outValue]
  | size =>
      refine ⟨?_, holds⟩
      rw [ShardedKvStore.apply, plainApply, holds.size]

section Sizes

variable (store : ShardedKvStore hash)

def shardSize (index : Nat) : Nat := (store.table.map (·.nodes.length))[index]?.getD 0

/-- The keys in the first shards. -/
def sizeUpTo : Nat → Nat
  | 0 => 0
  | count + 1 => sizeUpTo count + store.shardSize count

theorem sizeUpTo_eq_sum (count : Nat) :
    store.sizeUpTo count = ((store.table.map (·.nodes.length)).take count).sum := by
  induction count with
  | zero => rw [sizeUpTo, List.take_zero, List.sum_nil]
  | succ count ih =>
      rw [sizeUpTo, shardSize, ih, List.take_add_one, List.sum_append]
      cases (store.table.map (·.nodes.length))[count]? <;> simp

theorem sizeUpTo_all {count : Nat} (all : store.table.length ≤ count) :
    store.sizeUpTo count = store.size := by
  rw [sizeUpTo_eq_sum, List.take_of_length_le (by simpa using all), size_eq_sum]

theorem shardSize_of_getElem? {index : Nat} {shard : NodeMap Bytes Bytes}
    (found : store.table[index]? = some shard) : store.shardSize index = shard.nodes.length := by
  rw [shardSize, List.getElem?_map, found, Option.map_some, Option.getD_some]

/-- What one step does to the sizes of the shards. -/
structure Grows (before after : ShardedKvStore hash) : Prop where
  shards : after.table.length = before.table.length
  shard : ∀ index, before.shardSize index ≤ after.shardSize index
  size : after.size ≤ before.size + 1

theorem Grows.refl : Grows store store :=
  ⟨rfl, fun _ => Nat.le_refl _, Nat.le_succ _⟩

theorem grows_put (key value : Bytes) : Grows store (store.put key value) := by
  constructor
  · exact List.length_modify _ _ _
  · intro index
    have table : (store.put key value).table =
        store.table.modify (store.shardIndex key) (·.assign key value) := rfl
    rw [shardSize, shardSize, table, List.getElem?_map, List.getElem?_map, List.getElem?_modify]
    cases store.table[index]? with
    | none => exact Nat.le_refl _
    | some shard =>
        have larger := shard.length_assign key value
        simp only [Option.map_eq_map, Option.map_some, Option.getD_some]
        split <;> omega
  · rw [size_put]
    split <;> omega

theorem grows_apply (call : Call) : Grows store (store.apply call).2 := by
  cases call with
  | put key value => exact store.grows_put key value
  | get key outValue => exact .refl store
  | size => exact .refl store

variable {store}

theorem Grows.sizeUpTo_le {after : ShardedKvStore hash} (grows : Grows store after)
    (count : Nat) : store.sizeUpTo count ≤ after.sizeUpTo count := by
  induction count with
  | zero => exact Nat.le_refl _
  | succ count ih => exact Nat.add_le_add ih (grows.shard count)

end Sizes

namespace KvThreads

/-- Every way the threads move. -/
inductive Moves (threads : KvThreads hash) : Action → KvThreads hash → Prop where
  | calls (call : Call) : Moves threads (.call call)
      { threads with
        clock := threads.clock + 1
        calls := threads.calls ++ [⟨call, threads.clock, .first call⟩] }
  | counts (index counted total began : Nat) (shard : NodeMap Bytes Bytes)
      (here : threads.calls[index]? = some ⟨.size, began, .counting counted total⟩)
      (found : threads.store.table[counted]? = some shard) : Moves threads (.step index)
      { threads with
        clock := threads.clock + 1
        calls := threads.calls.set index
          ⟨.size, began, .counting (counted + 1) (total + shard.nodes.length)⟩ }
  | totals (index counted total began : Nat)
      (here : threads.calls[index]? = some ⟨.size, began, .counting counted total⟩)
      (all : threads.store.table.length ≤ counted) : Moves threads (.step index)
      { threads with
        clock := threads.clock + 1
        calls := threads.calls.set index ⟨.size, began, .returned⟩
        history := threads.history ++ [⟨.size, .size total, began, threads.clock⟩] }
  | enters (index began : Nat) (call : Call) (whole : call ≠ .size)
      (here : threads.calls[index]? = some ⟨call, began, .enter⟩) : Moves threads (.step index)
      { store := (threads.store.apply call).2
        clock := threads.clock + 1
        calls := threads.calls.set index ⟨call, began, .returned⟩
        history := threads.history ++
          [⟨call, (threads.store.apply call).1, began, threads.clock⟩] }

theorem step_moves {threads after : KvThreads hash} {action : Action}
    (taken : threads.step action = some after) : Moves threads action after := by
  cases action with
  | call call =>
      cases taken
      exact .calls call
  | step index =>
      simp only [step, Option.bind_eq_some_iff, Option.map_eq_some_iff] at taken
      obtain ⟨⟨call, began, pc⟩, here, ⟨store, next, reply⟩, stepped, rfl⟩ := taken
      dsimp only at stepped
      unfold stepCall at stepped
      split at stepped
      · cases stepped
        exact .enters index began (.put _ _) (by simp) here
      · cases stepped
        exact .enters index began (.get _ _) (by simp) here
      · split at stepped
        · rename_i found
          cases stepped
          simpa using Moves.counts index _ _ began _ here found
        · rename_i missing
          cases stepped
          exact .totals index _ _ began here (List.getElem?_eq_none_iff.mp missing)
      · cases stepped

end KvThreads

end Steps

end Chmicro.ShardedKvStore
