import Mathlib

set_option autoImplicit false

/- Histories of overlapping calls, and when they are those of an object that takes its calls
one at a time. Nothing here refers to a particular program. -/
namespace Linearization

variable {State Call Reply : Type}

/-- What an object answers to calls made one after another. -/
def replies (apply : State → Call → Reply × State) : State → List Call → List Reply
  | _, [] => []
  | state, call :: rest => (apply state call).1 :: replies apply (apply state call).2 rest

/-- A call that has returned, with the steps at which it began and returned. -/
structure Record (Call Reply : Type) where
  call : Call
  reply : Reply
  began : Nat
  returned : Nat
  deriving DecidableEq, Repr

/-- The calls can be put in an order in which each would have been answered as it was. No call
stands after one that began when it had returned. -/
def Linearizable (apply : State → Call → Reply × State) (initial : State)
    (history : List (Record Call Reply)) : Prop :=
  ∃ order : List (Record Call Reply), order.Perm history ∧
    replies apply initial (order.map (·.call)) = order.map (·.reply) ∧
    order.Pairwise fun earlier later => earlier.began ≤ later.returned

section Moments

variable (apply : State → Call → Reply × State) (writes : Call → Bool) (states : Nat → State)

/-- A call with the step at which it takes effect. It reads the state before that step, and
when it writes, the step leads to the state it leaves. -/
structure Placed (placed : Nat × Record Call Reply) : Prop where
  after : placed.2.began ≤ placed.1
  before : placed.1 ≤ placed.2.returned
  reply : (apply (states placed.1) placed.2.call).1 = placed.2.reply
  effect : writes placed.2.call → (apply (states placed.1) placed.2.call).2 = states (placed.1 + 1)

/-- Calls that read stand before the call that writes at the same step. -/
def rank (placed : Nat × Record Call Reply) : Nat :=
  2 * placed.1 + if writes placed.2.call then 1 else 0

/-- Two calls that do not both write at one step. -/
def Apart (first second : Nat × Record Call Reply) : Prop :=
  writes first.2.call → writes second.2.call → first.1 ≠ second.1

variable {apply writes states}

theorem Apart.symm {first second : Nat × Record Call Reply} (apart : Apart writes first second) :
    Apart writes second first :=
  fun written again => (apart again written).symm

theorem moment_le_of_rank_le {first second : Nat × Record Call Reply}
    (ordered : rank writes first ≤ rank writes second) : first.1 ≤ second.1 := by
  unfold rank at ordered
  split at ordered <;> split at ordered <;> omega

/-- After a call that writes comes a later step. -/
theorem moment_lt_of_writes {first second : Nat × Record Call Reply}
    (ordered : rank writes first ≤ rank writes second) (apart : Apart writes first second)
    (written : writes first.2.call) : first.1 < second.1 := by
  have later := moment_le_of_rank_le ordered
  by_cases again : writes second.2.call
  · have different := apart written again
    omega
  · unfold rank at ordered
    rw [if_pos written, if_neg again] at ordered
    omega

/-- The state stays as it is over steps at which nothing writes. -/
theorem states_eq_of_quiet {first last : Nat} (ordered : first ≤ last)
    (quiet : ∀ moment, first ≤ moment → moment < last → states (moment + 1) = states moment) :
    states last = states first := by
  induction last, ordered using Nat.le_induction with
  | base => rfl
  | succ last ordered ih =>
      rw [quiet last ordered (Nat.lt_succ_self last)]
      exact ih fun moment above below => quiet moment above (Nat.lt_succ_of_lt below)

/-- The induction is on the calls in the order of their ranks. The state is that of the first
step which no call before has written. -/
theorem replies_of_ordered (reads : ∀ state call, writes call = false → (apply state call).2 = state)
    {placed : List (Nat × Record Call Reply)} {start : Nat}
    (ordered : placed.Pairwise fun first second => rank writes first ≤ rank writes second)
    (apart : placed.Pairwise (Apart writes))
    (inside : ∀ entry ∈ placed, start ≤ entry.1 ∧ Placed apply writes states entry)
    (quiet : ∀ moment, start ≤ moment →
      (∀ entry ∈ placed, writes entry.2.call → entry.1 ≠ moment) →
        states (moment + 1) = states moment) :
    replies apply (states start) (placed.map (·.2.call)) = placed.map (·.2.reply) := by
  induction placed generalizing start with
  | nil => rfl
  | cons entry rest ih =>
      obtain ⟨below, ordered⟩ := List.pairwise_cons.mp ordered
      obtain ⟨different, apart⟩ := List.pairwise_cons.mp apart
      obtain ⟨⟨later, here⟩, inside⟩ := List.forall_mem_cons.mp inside
      have same : states start = states entry.1 := by
        refine (states_eq_of_quiet later fun moment above before => ?_).symm
        refine quiet moment above (List.forall_mem_cons.mpr ⟨fun _ => by omega, ?_⟩)
        intro other member _
        have next := moment_le_of_rank_le (below other member)
        omega
      rw [List.map_cons, List.map_cons, replies, same, here.reply]
      congr 1
      cases written : writes entry.2.call with
      | false =>
          rw [reads _ _ written]
          refine ih ordered apart (fun other member => ?_) fun moment above free => ?_
          · exact ⟨moment_le_of_rank_le (below other member), (inside other member).2⟩
          · refine quiet moment (Nat.le_trans later above) (List.forall_mem_cons.mpr ⟨?_, free⟩)
            rw [written]
            exact fun impossible => (by cases impossible)
      | true =>
          rw [here.effect written]
          refine ih ordered apart (fun other member => ?_) fun moment above free => ?_
          · have next := moment_lt_of_writes (below other member) (different other member) written
            exact ⟨next, (inside other member).2⟩
          · refine quiet moment (by omega) (List.forall_mem_cons.mpr ⟨fun _ => ?_, free⟩)
            omega

/-- The rule. Calls that each take effect at a step of their own span, where no two write at
the same step and nothing else writes, are linearizable. -/
theorem linearizable_of_placed
    (reads : ∀ state call, writes call = false → (apply state call).2 = state)
    (placed : List (Nat × Record Call Reply)) (apart : placed.Pairwise (Apart writes))
    (inside : ∀ entry ∈ placed, Placed apply writes states entry)
    (quiet : ∀ moment, (∀ entry ∈ placed, writes entry.2.call → entry.1 ≠ moment) →
      states (moment + 1) = states moment) :
    Linearizable apply (states 0) (placed.map (·.2)) := by
  let before (first second : Nat × Record Call Reply) : Prop :=
    rank writes first ≤ rank writes second
  have : Std.Total before := ⟨fun first second => Nat.le_total _ _⟩
  have : IsTrans (Nat × Record Call Reply) before := ⟨fun _ _ _ => Nat.le_trans⟩
  have : DecidableRel before := fun _ _ => inferInstanceAs (Decidable (_ ≤ _))
  have sorted := List.pairwise_insertionSort before placed
  have same := List.perm_insertionSort before placed
  have inside : ∀ entry ∈ placed.insertionSort before, Placed apply writes states entry :=
    fun entry member => inside entry (same.mem_iff.mp member)
  refine ⟨(placed.insertionSort before).map (·.2), same.map _, ?_, ?_⟩
  · rw [List.map_map, List.map_map]
    refine replies_of_ordered reads sorted ((same.pairwise_iff Apart.symm).mpr apart)
      (fun entry member => ⟨Nat.zero_le _, inside entry member⟩) fun moment _ free => ?_
    exact quiet moment fun entry member => free entry (same.mem_iff.mpr member)
  · rw [List.pairwise_map]
    refine sorted.imp_of_mem fun {first second} member other ordered => ?_
    have later := moment_le_of_rank_le ordered
    have early := (inside first member).after
    have late := (inside second other).before
    omega

/-- The rule where what a call writes is written as the call returns. A call that reads may
take effect at any step of its span. -/
theorem linearizable_of_returns
    (reads : ∀ state call, writes call = false → (apply state call).2 = state)
    {history : List (Record Call Reply)}
    (apart : history.Pairwise fun first second => first.returned ≠ second.returned)
    (inside : ∀ record ∈ history, ∃ effect, Placed apply writes states (effect, record) ∧
      (writes record.call → effect = record.returned))
    (quiet : ∀ moment, (∀ record ∈ history, writes record.call → record.returned ≠ moment) →
      states (moment + 1) = states moment) :
    Linearizable apply (states 0) history := by
  choose effect placed wrote using fun record : {record // record ∈ history} =>
    inside record.1 record.2
  have same : (history.attach.map fun record => (effect record, record.1)).map (·.2) = history := by
    rw [List.map_map]
    exact List.attach_map_subtype_val history
  rw [← same]
  apply linearizable_of_placed reads
  · rw [List.pairwise_map]
    have apart : history.attach.Pairwise fun first second =>
        first.1.returned ≠ second.1.returned := by
      rw [← List.attach_map_subtype_val history, List.pairwise_map] at apart
      exact apart
    refine apart.imp fun different written again together => different ?_
    rw [← wrote _ written, ← wrote _ again]
    exact together
  · intro entry member
    obtain ⟨record, -, rfl⟩ := List.mem_map.mp member
    exact placed record
  · intro moment free
    refine quiet moment fun record member written => ?_
    rw [← wrote ⟨record, member⟩ written]
    exact free _ (List.mem_map.mpr ⟨⟨record, member⟩, List.mem_attach _ _, rfl⟩) written

end Moments

/-- Objects that answer alike from related states have the same linearizable histories. -/
theorem Linearizable.refines {Other : Type} {apply : State → Call → Reply × State}
    {plain : Other → Call → Reply × Other} (related : State → Other → Prop)
    (alike : ∀ state other call, related state other →
      (apply state call).1 = (plain other call).1 ∧
        related (apply state call).2 (plain other call).2)
    {initial : State} {first : Other} (start : related initial first)
    {history : List (Record Call Reply)} (linear : Linearizable apply initial history) :
    Linearizable plain first history := by
  have same (calls : List Call) (state : State) (other : Other) (now : related state other) :
      replies plain other calls = replies apply state calls := by
    induction calls generalizing state other with
    | nil => rfl
    | cons call rest ih =>
        obtain ⟨reply, next⟩ := alike state other call now
        rw [replies, replies, reply, ih _ _ next]
  obtain ⟨order, permuted, answered, respected⟩ := linear
  exact ⟨order, permuted, (same _ initial first start).trans answered, respected⟩

/-- A number that grows by one at most at a step takes every value between two of its own. -/
theorem exists_moment_eq {measure : Nat → Nat} {first last target : Nat} (ordered : first ≤ last)
    (slow : ∀ moment, first ≤ moment → moment < last → measure (moment + 1) ≤ measure moment + 1)
    (low : measure first ≤ target) (high : target ≤ measure last) :
    ∃ moment, first ≤ moment ∧ moment ≤ last ∧ measure moment = target := by
  induction last, ordered using Nat.le_induction with
  | base => exact ⟨first, Nat.le_refl _, Nat.le_refl _, Nat.le_antisymm low high⟩
  | succ last ordered ih =>
      by_cases before : target ≤ measure last
      · obtain ⟨moment, above, below, same⟩ :=
          ih (fun moment above below => slow moment above (Nat.lt_succ_of_lt below)) before
        exact ⟨moment, above, Nat.le_succ_of_le below, same⟩
      · have step := slow last ordered (Nat.lt_succ_self last)
        exact ⟨last + 1, Nat.le_succ_of_le ordered, Nat.le_refl _, by omega⟩

end Linearization
