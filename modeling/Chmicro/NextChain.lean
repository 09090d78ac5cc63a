import Mathlib.Data.List.Basic

set_option autoImplicit false

/- Stages in a row, each of which may call the ones after it. -/
namespace NextChain

/-- What a stage does with the state: it returns, or it calls what comes next and goes on
from the state it gets back. -/
inductive Behaviour (S : Type) where
  | ret (state : S)
  | next (state : S) (resume : S → Behaviour S)

variable {S : Type}

namespace Behaviour

/-- The stage around what it calls. -/
def around (inner : S → S) : Behaviour S → S
  | .ret state => state
  | .next state resume => (resume (inner state)).around inner

def returned : Behaviour S → Bool
  | .ret _ => true
  | .next _ _ => false

/-- The stage calls at most once, whatever state it gets back. -/
def AtMostOnce : Behaviour S → Prop
  | .ret _ => True
  | .next _ resume => ∀ state, (resume state).returned = true

theorem returned_iff {behaviour : Behaviour S} :
    behaviour.returned = true ↔ ∃ state, behaviour = .ret state := by
  cases behaviour <;> simp [returned]

end Behaviour

/-- Each stage around the ones after it, with the handler in the middle. -/
def compose (handler : S → S) : List (S → Behaviour S) → S → S
  | [], state => handler state
  | stage :: rest, state => (stage state).around (compose handler rest)

/-- On the states they are given when they are nested, all stages but the last call at most
once. -/
def onceEach (handler : S → S) : List (S → Behaviour S) → S → Bool
  | [], _ => true
  | [_], _ => true
  | stage :: second :: rest, state =>
      match stage state with
      | .ret _ => true
      | .next given resume =>
          onceEach handler (second :: rest) given &&
            (resume (compose handler (second :: rest) given)).returned

theorem onceEach_of_atMostOnce {stages : List (S → Behaviour S)}
    (once : ∀ stage ∈ stages, ∀ state, (stage state).AtMostOnce) (handler : S → S) (state : S) :
    onceEach handler stages state = true := by
  induction stages generalizing state with
  | nil => rfl
  | cons stage rest ih =>
      rw [List.forall_mem_cons] at once
      cases rest with
      | nil => rfl
      | cons second rest =>
          have here := once.1 state
          cases behaves : stage state with
          | ret final => simp only [onceEach, behaves]
          | next given resume =>
              rw [behaves] at here
              simp only [onceEach, behaves, ih once.2 given, here _, Bool.and_self]

inductive Stage where
  | middle (index : Nat)
  | handler
  deriving DecidableEq, Repr

/-- The stage comes after the one with the index. -/
def Stage.after (index : Nat) : Stage → Bool
  | .middle other => index < other
  | .handler => true

/-- A stage was entered from within the calls of the stages listed. -/
structure Entry where
  stage : Stage
  within : List Nat
  deriving DecidableEq, Repr

/-- Each of the first stages is a gate: what comes after it is entered from within its calls. -/
def Gated (count : Nat) (trace : List Entry) : Prop :=
  ∀ entry ∈ trace, ∀ index < count, entry.stage.after index = true → index ∈ entry.within

instance (count : Nat) (trace : List Entry) : Decidable (Gated count trace) := by
  unfold Gated
  infer_instance

theorem gated_append {count : Nat} {first second : List Entry} :
    Gated count (first ++ second) ↔ Gated count first ∧ Gated count second := by
  simp only [Gated, List.mem_append, or_imp, forall_and]

end NextChain
