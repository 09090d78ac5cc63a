import Mathlib.Data.List.Basic
import Mathlib.Data.List.Perm.Basic
import Chmicro.Transition

set_option autoImplicit false

/- Calls whose atomic operations commute. However the calls interleave, they leave what they
would leave one after the other, in any order. Nothing here refers to a particular program. -/
namespace CommutingThreads

/-- The shared state, and what each call that has begun has still to do. -/
structure Threads (State Op : Type) where
  state : State
  calls : List (List Op) := []

inductive Action (Call : Type) where
  | begin (call : Call)
  | step (call : Nat)
  deriving DecidableEq

variable {State Op Call : Type}

/-- The calls that a run begins, in order. -/
def begun (actions : List (Action Call)) : List Call :=
  actions.filterMap fun
    | .begin call => some call
    | .step _ => none

variable (apply : State → Op → State) (ops : Call → List Op)

def step (threads : Threads State Op) : Action Call → Option (Threads State Op)
  | .begin call => some { threads with calls := threads.calls ++ [ops call] }
  | .step call =>
      match threads.calls[call]? with
      | some (op :: rest) =>
          some { state := apply threads.state op, calls := threads.calls.set call rest }
      | _ => none

/-- The state when all calls are carried to their ends. -/
def settled (threads : Threads State Op) : State := threads.calls.flatten.foldl apply threads.state

/-- A call on its own. -/
def perform (state : State) (call : Call) : State := (ops call).foldl apply state

/-- The first operation of a call is one of those that are left. -/
theorem flatten_perm {calls : List (List Op)} {call : Nat} {op : Op} {rest : List Op}
    (found : calls[call]? = some (op :: rest)) :
    calls.flatten.Perm (op :: (calls.set call rest).flatten) := by
  induction calls generalizing call with
  | nil => cases found
  | cons first others ih =>
      cases call with
      | zero =>
          obtain rfl : first = op :: rest := by simpa using found
          exact .refl _
      | succ call =>
          have later := ih (by simpa using found)
          rw [List.set_cons_succ, List.flatten_cons, List.flatten_cons]
          exact (later.append_left first).trans List.perm_middle

/-- When nothing is left to do, the state is what is settled. -/
theorem settled_finished {threads : Threads State Op} (finished : ∀ left ∈ threads.calls, left = []) :
    settled apply threads = threads.state := by
  rw [settled, List.flatten_eq_nil_iff.mpr finished]
  rfl

section Commutes

variable [RightCommutative apply] {threads after : Threads State Op}

/-- An operation takes nothing away from what is settled, and a call that begins adds itself. -/
theorem settled_step {action : Action Call} (taken : step apply ops threads action = some after) :
    settled apply after = (begun [action]).foldl (perform apply ops) (settled apply threads) := by
  cases action with
  | begin call =>
      cases taken
      show (threads.calls ++ [ops call]).flatten.foldl apply threads.state = _
      rw [List.flatten_append, List.flatten_singleton, List.foldl_append]
      rfl
  | step call =>
      simp only [step] at taken
      split at taken
      · rename_i op rest found
        cases taken
        exact ((flatten_perm found).foldl_eq threads.state).symm
      · cases taken

theorem settled_run {actions : List (Action Call)}
    (reached : Transition.run (step apply ops) threads actions = some after) :
    settled apply after = (begun actions).foldl (perform apply ops) (settled apply threads) := by
  induction actions generalizing threads with
  | nil =>
      cases reached
      rfl
  | cons action rest ih =>
      obtain ⟨next, taken, later⟩ := (Transition.run_cons_eq_some _).mp reached
      have split : begun (action :: rest) = begun [action] ++ begun rest :=
        List.filterMap_append (l := [action])
      rw [ih later, settled_step apply ops taken, split, List.foldl_append]

/-- Calls commute as wholes when their operations do. -/
theorem perform_perm {calls others : List Call} (same : calls.Perm others) (state : State) :
    calls.foldl (perform apply ops) state = others.foldl (perform apply ops) state := by
  have flat (calls : List Call) (state : State) :
      calls.foldl (perform apply ops) state = (calls.flatMap ops).foldl apply state := by
    induction calls generalizing state with
    | nil => rfl
    | cons call rest ih =>
        rw [List.foldl_cons, ih, List.flatMap_cons, List.foldl_append]
        rfl
  rw [flat, flat]
  exact (same.flatMap_right ops).foldl_eq state

end Commutes

end CommutingThreads
