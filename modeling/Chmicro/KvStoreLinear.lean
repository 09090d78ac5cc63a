import Chmicro.KvStoreThreads

set_option autoImplicit false

namespace Chmicro.ShardedKvStore

open Transition Linearization

variable {hash : Bytes → Nat}

section Invariant

variable (states : Nat → ShardedKvStore hash) (moment : Nat)

/-- A call that has returned took effect at a step of its span. A put did so as it returned. -/
structure Settled (record : Record Call Reply) : Prop where
  past : record.returned < moment
  placed : ∃ effect, Placed apply Call.writes states (effect, record) ∧
    (record.call.writes → effect = record.returned)

/-- The threads after a number of steps, where the stores before each step are given. A `Size`
under way has counted no fewer keys than its shards held when it began, and no more than they
hold now. -/
structure Kept (threads : KvThreads hash) : Prop where
  clock : threads.clock = moment
  store : threads.store = states moment
  begun : ∀ running ∈ threads.calls, running.began < moment
  counting : ∀ running ∈ threads.calls, ∀ counted total, running.pc = .counting counted total →
    (states running.began).sizeUpTo counted ≤ total ∧ total ≤ threads.store.sizeUpTo counted
  settled : ∀ record ∈ threads.history, Settled states moment record
  apart : threads.history.Pairwise fun first second => first.returned < second.returned
  quiet : ∀ before < moment, (∀ record ∈ threads.history, record.call.writes →
    record.returned ≠ before) → states (before + 1) = states before
  grows : ∀ before < moment, Grows (states before) (states (before + 1))

variable {states moment} {threads : KvThreads hash} (kept : Kept states moment threads)

include kept

/-- The shards are as many as ever, and each holds the keys it ever held. -/
theorem Kept.since {before : Nat} (earlier : before ≤ moment) :
    threads.store.table.length = (states before).table.length ∧
      ∀ index, (states before).shardSize index ≤ threads.store.shardSize index := by
  have reached (count : Nat) (inside : before + count ≤ moment) :
      (states (before + count)).table.length = (states before).table.length ∧
        ∀ index, (states before).shardSize index ≤ (states (before + count)).shardSize index := by
    induction count with
    | zero => exact ⟨rfl, fun _ => Nat.le_refl _⟩
    | succ count ih =>
        obtain ⟨length, sizes⟩ := ih (by omega)
        have grows := kept.grows (before + count) (by omega)
        exact ⟨grows.shards.trans length, fun index => Nat.le_trans (sizes index) (grows.shard index)⟩
  have whole := reached (moment - before) (by omega)
  rwa [Nat.add_sub_cancel' earlier, ← kept.store] at whole

/-- A `Size` that has counted all shards found the number of keys of some moment. -/
theorem Kept.total {running : KvCall} {counted total : Nat} (member : running ∈ threads.calls)
    (at_ : running.pc = .counting counted total) (all : threads.store.table.length ≤ counted) :
    ∃ effect, running.began ≤ effect ∧ effect ≤ moment ∧ (states effect).size = total := by
  have earlier := Nat.le_of_lt (kept.begun running member)
  obtain ⟨low, high⟩ := kept.counting running member counted total at_
  rw [sizeUpTo_all _ ((kept.since earlier).1 ▸ all)] at low
  rw [sizeUpTo_all _ all, kept.store] at high
  exact exists_moment_eq earlier (fun before _ inside => (kept.grows before inside).size) low high

/-- The steps taken so far say the same at the next moment. -/
theorem Kept.next {store : ShardedKvStore hash} {calls : List KvCall}
    {returning : List (Record Call Reply)} (same : states (moment + 1) = store)
    (grows : Grows threads.store store)
    (begun : ∀ running ∈ calls, running.began < moment + 1)
    (counting : ∀ running ∈ calls, ∀ counted total, running.pc = .counting counted total →
      (states running.began).sizeUpTo counted ≤ total ∧ total ≤ store.sizeUpTo counted)
    (settled : ∀ record ∈ returning, Settled states (moment + 1) record)
    (now : ∀ record ∈ returning, record.returned = moment) (single : returning.length ≤ 1)
    (quiet : (∀ record ∈ returning, record.call.writes = false) → store = threads.store) :
    Kept states (moment + 1)
      { store
        clock := threads.clock + 1
        calls
        history := threads.history ++ returning } where
  clock := congrArg (· + 1) kept.clock
  store := same.symm
  begun := begun
  counting := counting
  settled := by
    intro record member
    rcases List.mem_append.mp member with old | new
    · have before := kept.settled record old
      exact ⟨Nat.lt_succ_of_lt before.past, before.placed⟩
    · exact settled record new
  apart := by
    refine List.pairwise_append.mpr ⟨kept.apart, ?_, fun first old second new => ?_⟩
    · match returning, single with
      | [], _ => exact .nil
      | [record], _ => exact List.pairwise_singleton _ _
    · rw [now second new]
      exact (kept.settled first old).past
  quiet := by
    intro before past free
    rcases Nat.lt_succ_iff_lt_or_eq.mp past with past | rfl
    · exact kept.quiet before past fun record old => free record (List.mem_append_left _ old)
    · have unwritten : store = threads.store := quiet fun record new => by
        by_contra written
        exact free record (List.mem_append_right _ new) (by simpa using written) (now record new)
      rw [same, unwritten, kept.store]
  grows := by
    intro before past
    rcases Nat.lt_succ_iff_lt_or_eq.mp past with past | rfl
    · exact kept.grows before past
    · rw [same, ← kept.store]
      exact grows

/-- A step that neither returns nor writes. -/
theorem Kept.idles {calls : List KvCall} (same : states (moment + 1) = threads.store)
    (begun : ∀ running ∈ calls, running.began < moment + 1)
    (counting : ∀ running ∈ calls, ∀ counted total, running.pc = .counting counted total →
      (states running.began).sizeUpTo counted ≤ total ∧
        total ≤ threads.store.sizeUpTo counted) :
    Kept states (moment + 1) { threads with clock := threads.clock + 1, calls } := by
  have next : Kept states (moment + 1)
      ⟨threads.store, threads.clock + 1, calls, threads.history ++ []⟩ :=
    kept.next same (.refl _) begun counting (fun _ none => by cases none)
      (fun _ none => by cases none) (Nat.zero_le _) (fun _ => rfl)
  rwa [List.append_nil] at next

theorem Kept.begun_later : ∀ running ∈ threads.calls, running.began < moment + 1 :=
  fun running member => Nat.lt_succ_of_lt (kept.begun running member)

theorem Kept.begun_set {index began : Nat} {call : Call} {pc : CallPc} (next : CallPc)
    (here : threads.calls[index]? = some ⟨call, began, pc⟩) :
    ∀ running ∈ threads.calls.set index ⟨call, began, next⟩, running.began < moment + 1 := by
  refine ListSet.forall_mem_set kept.begun_later ?_
  exact kept.begun_later ⟨call, began, pc⟩ (List.mem_of_getElem? here)

/-- The calls that count on while the store grows. -/
theorem Kept.counting_later {store : ShardedKvStore hash} (grows : Grows threads.store store) :
    ∀ running ∈ threads.calls, ∀ counted total, running.pc = .counting counted total →
      (states running.began).sizeUpTo counted ≤ total ∧ total ≤ store.sizeUpTo counted := by
  intro running member counted total at_
  obtain ⟨low, high⟩ := kept.counting running member counted total at_
  exact ⟨low, Nat.le_trans high (grows.sizeUpTo_le counted)⟩

theorem Kept.calls (call : Call) (same : states (moment + 1) = threads.store) :
    Kept states (moment + 1)
      { threads with
        clock := threads.clock + 1
        calls := threads.calls ++ [⟨call, threads.clock, .first call⟩] } := by
  apply kept.idles same
  · intro running member
    rcases List.mem_append.mp member with old | new
    · exact kept.begun_later running old
    · rw [List.mem_singleton.mp new, kept.clock]
      exact Nat.lt_succ_self moment
  · intro running member counted total at_
    rcases List.mem_append.mp member with old | new
    · exact kept.counting running old counted total at_
    · rw [List.mem_singleton.mp new] at at_ ⊢
      cases call with
      | put key value => cases at_
      | get key outValue => cases at_
      | size =>
          cases at_
          exact ⟨Nat.zero_le _, Nat.zero_le _⟩

/-- The shard that is read holds no fewer keys than it did when the call began. -/
theorem Kept.counts {index counted total began : Nat} {shard : NodeMap Bytes Bytes}
    (here : threads.calls[index]? = some ⟨.size, began, .counting counted total⟩)
    (found : threads.store.table[counted]? = some shard)
    (same : states (moment + 1) = threads.store) :
    Kept states (moment + 1)
      { threads with
        clock := threads.clock + 1
        calls := threads.calls.set index
          ⟨.size, began, .counting (counted + 1) (total + shard.nodes.length)⟩ } := by
  have member := List.mem_of_getElem? here
  have earlier := Nat.le_of_lt (kept.begun _ member)
  obtain ⟨low, high⟩ := kept.counting _ member counted total rfl
  have read := threads.store.shardSize_of_getElem? found
  have grown := (kept.since earlier).2 counted
  apply kept.idles same (kept.begun_set _ here)
  refine ListSet.forall_mem_set (kept.counting_later (.refl _)) fun next sum at_ => ?_
  cases at_
  rw [read] at grown
  rw [sizeUpTo, sizeUpTo, read]
  exact ⟨Nat.add_le_add low grown, Nat.add_le_add_right high _⟩

/-- A call returns at this step, with what it read or wrote. -/
theorem Kept.returns {index began : Nat} {call : Call} {pc : CallPc} {reply : Reply}
    {store : ShardedKvStore hash}
    (here : threads.calls[index]? = some ⟨call, began, pc⟩)
    (placed : ∃ effect, Placed apply Call.writes states (effect, ⟨call, reply, began, moment⟩) ∧
      (call.writes → effect = moment))
    (same : states (moment + 1) = store) (grows : Grows threads.store store)
    (quiet : call.writes = false → store = threads.store) :
    Kept states (moment + 1)
      { store
        clock := threads.clock + 1
        calls := threads.calls.set index ⟨call, began, .returned⟩
        history := threads.history ++ [⟨call, reply, began, threads.clock⟩] } := by
  rw [show threads.history ++ [⟨call, reply, began, threads.clock⟩] =
    threads.history ++ [⟨call, reply, began, moment⟩] by rw [kept.clock]]
  apply kept.next same grows (kept.begun_set _ here)
  · exact ListSet.forall_mem_set (kept.counting_later grows) fun _ _ at_ => by cases at_
  · exact List.forall_mem_singleton.mpr ⟨Nat.lt_succ_self moment, placed⟩
  · exact List.forall_mem_singleton.mpr rfl
  · exact Nat.le_refl _
  · exact fun reads => quiet (reads _ List.mem_cons_self)

theorem Kept.totals {index counted total began : Nat}
    (here : threads.calls[index]? = some ⟨.size, began, .counting counted total⟩)
    (all : threads.store.table.length ≤ counted) (same : states (moment + 1) = threads.store) :
    Kept states (moment + 1)
      { threads with
        clock := threads.clock + 1
        calls := threads.calls.set index ⟨.size, began, .returned⟩
        history := threads.history ++ [⟨.size, .size total, began, threads.clock⟩] } := by
  obtain ⟨effect, after, before, found⟩ := kept.total (List.mem_of_getElem? here) rfl all
  refine kept.returns here ⟨effect, ⟨after, before, ?_, ?_⟩, ?_⟩ same (.refl _) fun _ => rfl
  · exact congrArg Reply.size found
  · exact fun impossible => by cases impossible
  · exact fun impossible => by cases impossible

theorem Kept.enters {index began : Nat} {call : Call}
    (here : threads.calls[index]? = some ⟨call, began, .enter⟩)
    (same : states (moment + 1) = (threads.store.apply call).2) :
    Kept states (moment + 1)
      { store := (threads.store.apply call).2
        clock := threads.clock + 1
        calls := threads.calls.set index ⟨call, began, .returned⟩
        history := threads.history ++
          [⟨call, (threads.store.apply call).1, began, threads.clock⟩] } := by
  have earlier := Nat.le_of_lt (kept.begun _ (List.mem_of_getElem? here))
  refine kept.returns here ⟨moment, ⟨earlier, Nat.le_refl _, ?_, ?_⟩, fun _ => rfl⟩ same
    (threads.store.grows_apply call) (threads.store.apply_reads call)
  · rw [← kept.store]
  · intro _
    rw [← kept.store]
    exact same.symm

theorem Kept.step {after : KvThreads hash} {action : KvThreads.Action}
    (taken : threads.step action = some after) (same : states (moment + 1) = after.store) :
    Kept states (moment + 1) after := by
  cases KvThreads.step_moves taken with
  | calls call => exact kept.calls call same
  | counts index counted total began shard here found => exact kept.counts here found same
  | totals index counted total began here all => exact kept.totals here all same
  | enters index began call whole here => exact kept.enters here same

end Invariant

namespace KvThreads

variable {shards : Nat}

/-- The store before each step of a run. -/
def stores (shards : Nat) (actions : List Action) (moment : Nat) : ShardedKvStore hash :=
  (trajectory step (start shards) actions moment).store

theorem kept_of_run {actions : List Action} {threads : KvThreads hash}
    (reached : run step (start shards) actions = some threads) :
    Kept (stores shards actions) actions.length threads := by
  have initial : Kept (stores shards actions) 0 (start shards : KvThreads hash) := by
    constructor
    · rfl
    · rw [stores, trajectory_zero]
    all_goals simp [start]
  have kept : Kept (stores shards actions) actions.length
      (trajectory step (start shards) actions actions.length) :=
    @trajectory_invariant _ _ step _ _ _ reached (Kept (stores shards actions)) initial
      (fun moment action next kept taken same => kept.step taken (by rw [stores, same])) _
      (Nat.le_refl _)
  rwa [trajectory_last step reached (Nat.le_refl _)] at kept

/-- Each call that returned can be given its reply by one plain map that takes the calls one at
a time, in an order that respects when they began and returned. -/
theorem store_linearizable (actions : List Action) (threads : KvThreads hash)
    (reached : run step (start shards) actions = some threads) :
    Linearizable plainApply [] threads.history := by
  have kept := kept_of_run reached
  have linear : Linearizable apply (@stores hash shards actions 0) threads.history := by
    apply linearizable_of_returns apply_reads
    · exact kept.apart.imp Nat.ne_of_lt
    · exact fun record member => (kept.settled record member).placed
    · intro moment free
      rcases Nat.lt_or_ge moment actions.length with inside | past
      · exact kept.quiet moment inside free
      · rw [stores, stores, trajectory_last step reached past,
          trajectory_last step reached (Nat.le_succ_of_le past)]
  rw [stores, trajectory_zero] at linear
  exact linear.refines Holds (fun _ _ call holds => holds.apply call) (holds_new shards)

/-- A `Size` reads the first shard before a put there, and the second one after a put there. -/
def overlapping : List Action :=
  [.call .size, .step 0, .call (.put (ascii "ab") (ascii "v")), .step 1,
    .call (.put (ascii "a") (ascii "v")), .step 2, .step 0, .step 0]

theorem store_linearizable_overlapping :
    ∃ threads : KvThreads List.length, run step (start 2) overlapping = some threads ∧
      threads.history.map (·.reply) = [.stored, .stored, .size 1] ∧
      Linearizable plainApply [] threads.history :=
  ⟨_, rfl, by decide +kernel, @store_linearizable List.length 2 overlapping _ rfl⟩

end KvThreads

end Chmicro.ShardedKvStore
