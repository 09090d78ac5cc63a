import Mathlib
import Chmicro.Transition

set_option autoImplicit false

/- An event loop with one thread. Operations are outstanding until the environment
completes them, completions queue in that order, and the thread runs the handler of one
completion at a time. Nothing here refers to a particular program. -/
namespace EventLoop

/-- The user's data, the outstanding operations and the completions not handled yet. -/
structure Loop (User Op Completion : Type) where
  user : User
  pending : List Op := []
  ready : List Completion := []

inductive Event (Completion : Type) where
  | complete (completion : Completion)
  | dispatch
  deriving DecidableEq, Repr

/-- A program of the loop: which operation a completion answers, which completions the
environment can produce, and what the handler of one does. -/
structure Program (User Op Completion : Type) where
  answers : Completion → Op → Bool
  possible : Completion → Bool
  handler : Completion → Loop User Op Completion → Loop User Op Completion

variable {User Op Completion : Type}

namespace Loop

def start (loop : Loop User Op Completion) (op : Op) : Loop User Op Completion :=
  { loop with pending := loop.pending ++ [op] }

/-- The selected operations complete as aborted. A completion in the queue stays as it is. -/
def cancel (loop : Loop User Op Completion) (selected : Op → Bool) (aborted : Op → Completion) :
    Loop User Op Completion :=
  { loop with
    pending := loop.pending.filter fun op => !selected op
    ready := loop.ready ++ (loop.pending.filter selected).map aborted }

/-- The loop returns from its run when nothing is outstanding or queued. -/
def Idle (loop : Loop User Op Completion) : Prop :=
  loop.pending = [] ∧ loop.ready = []

@[simp] theorem mem_start_pending {loop : Loop User Op Completion} {op other : Op} :
    other ∈ (loop.start op).pending ↔ other ∈ loop.pending ∨ other = op := by
  simp [start]

end Loop

namespace Program

def step (program : Program User Op Completion) (loop : Loop User Op Completion) :
    Event Completion → Option (Loop User Op Completion)
  | .complete completion =>
      if program.possible completion ∧ loop.pending.any (program.answers completion) then
        some { loop with
          pending := loop.pending.eraseP (program.answers completion)
          ready := loop.ready ++ [completion] }
      else
        none
  | .dispatch =>
      match loop.ready with
      | [] => none
      | completion :: rest => some (program.handler completion { loop with ready := rest })

/-- The two ways the loop moves. -/
inductive Moves (program : Program User Op Completion) (loop : Loop User Op Completion) :
    Event Completion → Loop User Op Completion → Prop where
  | completes (completion : Completion) (possible : program.possible completion)
      (awaited : ∃ op ∈ loop.pending, program.answers completion op) :
      Moves program loop (.complete completion)
        { loop with
          pending := loop.pending.eraseP (program.answers completion)
          ready := loop.ready ++ [completion] }
  | dispatches (completion : Completion) (rest : List Completion)
      (next : loop.ready = completion :: rest) :
      Moves program loop .dispatch (program.handler completion { loop with ready := rest })

theorem step_moves {program : Program User Op Completion} {loop after : Loop User Op Completion}
    {event : Event Completion} (taken : program.step loop event = some after) :
    Moves program loop event after := by
  cases event with
  | complete completion =>
      simp only [step] at taken
      split at taken
      · rename_i enabled
        cases taken
        exact .completes completion enabled.1 (List.any_eq_true.mp enabled.2)
      · cases taken
  | dispatch =>
      simp only [step] at taken
      split at taken
      · cases taken
      · rename_i completion rest next
        cases taken
        exact .dispatches completion rest next

end Program

section Weight

variable (ofOp : Op → Nat) (ofCompletion : Completion → Nat)

/-- The outstanding operations and the queued completions, each with its weight. -/
def weight (loop : Loop User Op Completion) : Nat :=
  (loop.pending.map ofOp).sum + (loop.ready.map ofCompletion).sum

variable (loop : Loop User Op Completion)

theorem weight_start (op : Op) :
    weight ofOp ofCompletion (loop.start op) = weight ofOp ofCompletion loop + ofOp op := by
  simp only [weight, Loop.start, List.map_append, List.sum_append, List.map_cons, List.map_nil,
    List.sum_cons, List.sum_nil]
  omega

/-- A cancellation adds no weight when what it queues weighs no more than what it takes away. -/
theorem weight_cancel_le (selected : Op → Bool) {aborted : Op → Completion}
    (lighter : ∀ op, ofCompletion (aborted op) ≤ ofOp op) :
    weight ofOp ofCompletion (loop.cancel selected aborted) ≤ weight ofOp ofCompletion loop := by
  have parts : ∀ ops : List Op, ((ops.filter fun op => !selected op).map ofOp).sum +
      (((ops.filter selected).map aborted).map ofCompletion).sum ≤ (ops.map ofOp).sum := by
    intro ops
    induction ops with
    | nil => exact Nat.le_refl 0
    | cons op rest ih =>
        have light := lighter op
        by_cases chosen : selected op
        · simp only [List.filter_cons, chosen, Bool.not_true, Bool.false_eq_true, if_false, if_true,
            List.map_cons, List.sum_cons]
          omega
        · simp only [List.filter_cons, chosen, Bool.not_false, Bool.false_eq_true, if_false, if_true,
            List.map_cons, List.sum_cons]
          omega
  have split := parts loop.pending
  simp only [weight, Loop.cancel, List.map_append, List.sum_append]
  omega

variable {ofOp ofCompletion}

/-- A completion takes weight away when it weighs less than what it answers. -/
theorem weight_complete_lt {completion : Completion} {answers : Op → Bool}
    (lighter : ∀ op, answers op → ofCompletion completion < ofOp op)
    (awaited : ∃ op ∈ loop.pending, answers op) :
    weight ofOp ofCompletion { loop with
      pending := loop.pending.eraseP answers
      ready := loop.ready ++ [completion] } < weight ofOp ofCompletion loop := by
  obtain ⟨op, member, answered⟩ := awaited
  obtain ⟨first, before, later, -, holds, split, erased⟩ := List.exists_of_eraseP member answered
  have light := lighter first holds
  rw [weight, weight, erased, split]
  simp only [List.map_append, List.sum_append, List.map_cons, List.map_nil, List.sum_cons,
    List.sum_nil]
  omega

variable {program : Program User Op Completion}

/-- Every step takes weight away. A completion weighs less than what it answers, and a handler
leaves less than it takes. -/
structure Program.Spends (program : Program User Op Completion) (ofOp : Op → Nat)
    (ofCompletion : Completion → Nat) : Prop where
  answers : ∀ completion op, program.answers completion op → ofCompletion completion < ofOp op
  handler : ∀ completion (loop : Loop User Op Completion),
    weight ofOp ofCompletion (program.handler completion loop) <
      weight ofOp ofCompletion loop + ofCompletion completion

variable (spends : program.Spends ofOp ofCompletion)

include spends

theorem Program.Spends.lowers {loop after : Loop User Op Completion} {event : Event Completion}
    (taken : program.step loop event = some after) :
    weight ofOp ofCompletion after < weight ofOp ofCompletion loop := by
  cases Program.step_moves taken with
  | completes completion possible awaited =>
      exact weight_complete_lt loop (spends.answers completion) awaited
  | dispatches completion rest next =>
      have less := spends.handler completion { loop with ready := rest }
      simp only [weight, next, List.map_cons, List.sum_cons] at less ⊢
      omega

/-- No run is longer than what its loop weighs. -/
theorem Program.Spends.length_le {final : Loop User Op Completion}
    {events : List (Event Completion)}
    (reached : Transition.run program.step loop events = some final) :
    events.length ≤ weight ofOp ofCompletion loop :=
  Transition.length_le_rank program.step (fun _ _ => True) (fun _ => True)
    (weight ofOp ofCompletion) (fun _ _ _ _ _ _ => trivial)
    (fun _ _ _ _ _ taken => spends.lowers taken) trivial
    (Transition.Meets.of_forall program.step (fun _ _ => trivial) loop events) reached

/-- The loop can always be run until it is idle, when every operation can be completed. -/
theorem Program.Spends.exists_idle
    (completes : ∀ op, ∃ completion, program.possible completion ∧ program.answers completion op) :
    ∃ more final, Transition.run program.step loop more = some final ∧ final.Idle := by
  suffices rests : ∃ more final, (∀ event ∈ more, True) ∧
      Transition.run program.step loop more = some final ∧ final.Idle by
    obtain ⟨more, final, -, ended⟩ := rests
    exact ⟨more, final, ended⟩
  refine Transition.exists_rest program.step (fun _ => True) (weight ofOp ofCompletion) Loop.Idle
    (fun _ _ _ _ taken => spends.lowers taken) (fun loop busy => ?_) loop
  cases queued : loop.ready with
  | cons completion rest => exact ⟨.dispatch, _, trivial, by rw [Program.step, queued]⟩
  | nil =>
      cases outstanding : loop.pending with
      | nil => exact absurd ⟨outstanding, queued⟩ busy
      | cons op rest =>
          obtain ⟨completion, possible, answered⟩ := completes op
          refine ⟨.complete completion, _, trivial, if_pos ⟨possible, ?_⟩⟩
          rw [outstanding, List.any_cons, answered, Bool.true_or]

end Weight

/-- An event of the first kind occurs with none of the second kind before it. -/
def Before {Event : Type} (first second : Event → Prop) (events : List Event) : Prop :=
  ∃ before event after, events = before ++ event :: after ∧ first event ∧
    ∀ earlier ∈ before, ¬ second earlier

/-- Two events cannot each come before the other. -/
theorem Before.asymm {Event : Type} {first second : Event → Prop} {events : List Event}
    (apart : ∀ event, first event → ¬ second event)
    (ahead : Before first second events) : ¬ Before second first events := by
  rintro ⟨before, event, after, split, isSecond, noFirst⟩
  obtain ⟨before', event', after', split', isFirst, noSecond⟩ := ahead
  rw [split] at split'
  rcases List.append_eq_append_iff.mp split' with
    ⟨gap, rfl, rest⟩ | ⟨gap, rfl, rest⟩
  · cases gap with
    | nil =>
        cases rest
        exact apart event isFirst isSecond
    | cons head gap =>
        cases rest
        exact noSecond event (by simp) isSecond
  · cases gap with
    | nil =>
        cases rest
        exact apart _ isFirst isSecond
    | cons head gap =>
        cases rest
        exact noFirst event' (by simp) isFirst

theorem Before.mono {Event : Type} {first first' second : Event → Prop} {events : List Event}
    (weaker : ∀ event, first event → first' event) (ahead : Before first second events) :
    Before first' second events := by
  obtain ⟨before, event, after, split, isFirst, noSecond⟩ := ahead
  exact ⟨before, event, after, split, weaker event isFirst, noSecond⟩

end EventLoop
