import Mathlib
import Chmicro.EventLoop
import Chmicro.ListSet

set_option autoImplicit false

/- An event loop that several threads run. The handlers of the queued completions run in any
order, each of them as one step and with what it reads from outside meanwhile. Nothing here
refers to a particular program. -/
namespace EventPool

open EventLoop

inductive Event (Completion Input : Type) where
  | complete (completion : Completion)
  | dispatch (index : Nat) (input : Input)

structure Program (User Op Completion Input : Type) where
  answers : Completion → Op → Bool
  possible : Completion → Bool
  handler : Completion → Input → Loop User Op Completion → Loop User Op Completion

variable {User Op Completion Input : Type}

namespace Program

def step (program : Program User Op Completion Input) (loop : Loop User Op Completion) :
    Event Completion Input → Option (Loop User Op Completion)
  | .complete completion =>
      if program.possible completion ∧ loop.pending.any (program.answers completion) then
        some { loop with
          pending := loop.pending.eraseP (program.answers completion)
          ready := loop.ready ++ [completion] }
      else
        none
  | .dispatch index input =>
      loop.ready[index]?.map fun completion =>
        program.handler completion input { loop with ready := loop.ready.eraseIdx index }

/-- The two ways the pool moves. -/
inductive Moves (program : Program User Op Completion Input) (loop : Loop User Op Completion) :
    Event Completion Input → Loop User Op Completion → Prop where
  | completes (completion : Completion) (possible : program.possible completion)
      (awaited : ∃ op ∈ loop.pending, program.answers completion op) :
      Moves program loop (.complete completion)
        { loop with
          pending := loop.pending.eraseP (program.answers completion)
          ready := loop.ready ++ [completion] }
  | dispatches (index : Nat) (input : Input) (completion : Completion)
      (here : loop.ready[index]? = some completion) :
      Moves program loop (.dispatch index input)
        (program.handler completion input { loop with ready := loop.ready.eraseIdx index })

variable {program : Program User Op Completion Input} {loop after : Loop User Op Completion}

theorem step_moves {event : Event Completion Input} (taken : program.step loop event = some after) :
    Moves program loop event after := by
  cases event with
  | complete completion =>
      simp only [step] at taken
      split at taken
      · rename_i enabled
        cases taken
        exact .completes completion enabled.1 (List.any_eq_true.mp enabled.2)
      · cases taken
  | dispatch index input =>
      obtain ⟨completion, here, rfl⟩ := Option.map_eq_some_iff.mp taken
      exact .dispatches index input completion here

theorem step_dispatch {index : Nat} {completion : Completion}
    (here : loop.ready[index]? = some completion) (input : Input) :
    program.step loop (.dispatch index input) = some
      (program.handler completion input { loop with ready := loop.ready.eraseIdx index }) := by
  rw [step, here, Option.map_some]

theorem step_complete {completion : Completion} (possible : program.possible completion)
    {op : Op} (awaited : op ∈ loop.pending) (answered : program.answers completion op) :
    program.step loop (.complete completion) = some
      { loop with
        pending := loop.pending.eraseP (program.answers completion)
        ready := loop.ready ++ [completion] } :=
  if_pos ⟨possible, List.any_eq_true.mpr ⟨op, awaited, answered⟩⟩

end Program

section Count

variable (ofOp : Op → Bool) (ofCompletion : Completion → Bool)

/-- How many operations and completions of a kind are outstanding or queued. -/
def count (loop : Loop User Op Completion) : Nat :=
  loop.pending.countP ofOp + loop.ready.countP ofCompletion

variable (loop : Loop User Op Completion)

theorem count_start (op : Op) : count ofOp ofCompletion (loop.start op) =
    count ofOp ofCompletion loop + if ofOp op then 1 else 0 := by
  rw [count, count, Loop.start, List.countP_append, List.countP_singleton]
  exact Nat.add_right_comm _ _ _

/-- What is cancelled is still handled. -/
theorem count_cancel (selected : Op → Bool) {aborted : Op → Completion}
    (same : ∀ op, ofCompletion (aborted op) = ofOp op) :
    count ofOp ofCompletion (loop.cancel selected aborted) = count ofOp ofCompletion loop := by
  have kept : ofCompletion ∘ aborted = ofOp := funext same
  have parts := List.countP_eq_countP_filter_add loop.pending ofOp selected
  rw [count, count, Loop.cancel, List.countP_append, List.countP_map, kept]
  dsimp only
  omega

/-- An operation that completes is queued in place of being outstanding. -/
theorem count_complete {completion : Completion} {answers : Op → Bool}
    (same : ∀ op, answers op → ofCompletion completion = ofOp op)
    (awaited : ∃ op ∈ loop.pending, answers op) :
    count ofOp ofCompletion { loop with
      pending := loop.pending.eraseP answers
      ready := loop.ready ++ [completion] } = count ofOp ofCompletion loop := by
  obtain ⟨op, member, answered⟩ := awaited
  obtain ⟨first, before, after, -, holds, split, erased⟩ := List.exists_of_eraseP member answered
  rw [count, count, erased, split, List.countP_append, List.countP_append, List.countP_append,
    List.countP_singleton, List.countP_cons, same first holds]
  omega

theorem count_take {index : Nat} {completion : Completion}
    (here : loop.ready[index]? = some completion) :
    count ofOp ofCompletion { loop with ready := loop.ready.eraseIdx index } +
      (if ofCompletion completion then 1 else 0) = count ofOp ofCompletion loop := by
  have less := ListSet.countP_eraseIdx_add ofCompletion here
  rw [count, count]
  dsimp only
  omega

end Count

section Weight

variable {ofOp : Op → Nat} {ofCompletion : Completion → Nat}
  {program : Program User Op Completion Input} {inputs : Input → Prop}

theorem weight_take {loop : Loop User Op Completion} {index : Nat} {completion : Completion}
    (here : loop.ready[index]? = some completion) :
    weight ofOp ofCompletion { loop with ready := loop.ready.eraseIdx index } +
      ofCompletion completion = weight ofOp ofCompletion loop := by
  have taken := ListSet.sum_map_eraseIdx_add ofCompletion here
  rw [weight, weight]
  dsimp only
  omega

/-- The handlers read such inputs only. -/
def Event.Reads (inputs : Input → Prop) : Event Completion Input → Prop
  | .complete _ => True
  | .dispatch _ input => inputs input

/-- Every step takes weight away, while handlers read such inputs. -/
structure Program.Spends (program : Program User Op Completion Input) (inputs : Input → Prop)
    (ofOp : Op → Nat) (ofCompletion : Completion → Nat) : Prop where
  answers : ∀ completion op, program.answers completion op → ofCompletion completion < ofOp op
  handler : ∀ completion input (loop : Loop User Op Completion), inputs input →
    weight ofOp ofCompletion (program.handler completion input loop) <
      weight ofOp ofCompletion loop + ofCompletion completion

variable (spends : program.Spends inputs ofOp ofCompletion)

include spends

theorem Program.Spends.lowers {loop after : Loop User Op Completion}
    {event : Event Completion Input} (reads : event.Reads inputs)
    (taken : program.step loop event = some after) :
    weight ofOp ofCompletion after < weight ofOp ofCompletion loop := by
  cases Program.step_moves taken with
  | completes completion possible awaited =>
      exact weight_complete_lt loop (spends.answers completion) awaited
  | dispatches index input completion here =>
      have less := spends.handler completion input
        { loop with ready := loop.ready.eraseIdx index } reads
      rwa [weight_take here] at less

theorem Program.Spends.length_le {loop final : Loop User Op Completion}
    {events : List (Event Completion Input)} (reads : ∀ event ∈ events, event.Reads inputs)
    (reached : Transition.run program.step loop events = some final) :
    events.length ≤ weight ofOp ofCompletion loop :=
  Transition.length_le_rank program.step (fun _ event => event.Reads inputs) (fun _ => True)
    (weight ofOp ofCompletion) (fun _ _ _ _ _ _ => trivial)
    (fun _ _ _ _ reads taken => spends.lowers reads taken) trivial
    (Transition.Meets.of_mem program.step reads loop) reached

theorem Program.Spends.exists_idle {input : Input} (readable : inputs input)
    (completes : ∀ op, ∃ completion, program.possible completion ∧ program.answers completion op)
    (loop : Loop User Op Completion) : ∃ more final, (∀ event ∈ more, event.Reads inputs) ∧
      Transition.run program.step loop more = some final ∧ final.Idle := by
  refine Transition.exists_rest program.step (Event.Reads inputs) (weight ofOp ofCompletion)
    Loop.Idle (fun _ _ _ reads taken => spends.lowers reads taken) (fun loop busy => ?_) loop
  cases queued : loop.ready with
  | cons completion rest =>
      have here : loop.ready[0]? = some completion := by rw [queued, List.getElem?_cons_zero]
      exact ⟨.dispatch 0 input, _, readable, Program.step_dispatch here input⟩
  | nil =>
      cases outstanding : loop.pending with
      | nil => exact absurd ⟨outstanding, queued⟩ busy
      | cons op rest =>
          obtain ⟨completion, possible, answered⟩ := completes op
          have awaited : op ∈ loop.pending := by
            rw [outstanding]
            exact List.mem_cons_self
          exact ⟨.complete completion, _, trivial, Program.step_complete possible awaited answered⟩

end Weight

end EventPool
