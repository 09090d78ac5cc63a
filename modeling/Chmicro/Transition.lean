import Mathlib.Data.List.Basic

set_option autoImplicit false

/- Runs of a system whose step is a partial function of a state and an action.
Nothing here refers to a particular program. -/
namespace Transition

variable {State Action : Type}

/-- A run takes its actions in order. It fails at the first one that is not enabled. -/
def run (step : State → Action → Option State) : State → List Action → Option State
  | state, [] => some state
  | state, action :: rest => (step state action).bind fun next => run step next rest

variable (step : State → Action → Option State)

@[simp] theorem run_nil (state : State) : run step state [] = some state := rfl

theorem run_cons (state : State) (action : Action) (rest : List Action) :
    run step state (action :: rest) = (step state action).bind fun next => run step next rest :=
  rfl

theorem run_cons_eq_some {state final : State} {action : Action} {rest : List Action} :
    run step state (action :: rest) = some final ↔
      ∃ next, step state action = some next ∧ run step next rest = some final := by
  simp only [run_cons, Option.bind_eq_some_iff]

theorem run_append (state : State) (actions more : List Action) :
    run step state (actions ++ more) =
      (run step state actions).bind fun next => run step next more := by
  induction actions generalizing state with
  | nil => rfl
  | cons action rest ih =>
      rw [List.cons_append, run_cons, run_cons, Option.bind_assoc]
      exact congrArg _ (funext ih)

/-- Each action of the run is taken in a state that meets the condition with it. -/
def Meets (condition : State → Action → Prop) : State → List Action → Prop
  | _, [] => True
  | state, action :: rest =>
      condition state action ∧ ∀ next ∈ step state action, Meets condition next rest

instance Meets.decidable (condition : State → Action → Prop)
    [∀ state action, Decidable (condition state action)] :
    (state : State) → (actions : List Action) → Decidable (Meets step condition state actions)
  | _, [] => isTrue trivial
  | state, action :: rest =>
      have := fun next => Meets.decidable condition next rest
      inferInstanceAs (Decidable
        (condition state action ∧ ∀ next ∈ step state action, Meets step condition next rest))

theorem Meets.of_forall {condition : State → Action → Prop}
    (always : ∀ state action, condition state action) (state : State) (actions : List Action) :
    Meets step condition state actions := by
  induction actions generalizing state with
  | nil => trivial
  | cons action rest ih => exact ⟨always state action, fun next _ => ih next⟩

theorem Meets.of_mem {allowed : Action → Prop} {actions : List Action}
    (listed : ∀ action ∈ actions, allowed action) (state : State) :
    Meets step (fun _ action => allowed action) state actions := by
  induction actions generalizing state with
  | nil => trivial
  | cons action rest ih =>
      refine ⟨listed action List.mem_cons_self, fun next _ => ih (fun other member => ?_) next⟩
      exact listed other (List.mem_cons_of_mem _ member)

theorem Meets.and {condition other : State → Action → Prop} {state : State}
    {actions : List Action} (meets : Meets step condition state actions)
    (both : Meets step other state actions) :
    Meets step (fun state action => condition state action ∧ other state action) state actions := by
  induction actions generalizing state with
  | nil => trivial
  | cons action rest ih =>
      exact ⟨⟨meets.1, both.1⟩, fun next taken => ih (meets.2 next taken) (both.2 next taken)⟩

/-- Every step taken along the run satisfies the relation. -/
def Along (relation : State → Action → State → Prop) : State → List Action → Prop
  | _, [] => True
  | state, action :: rest =>
      ∀ next ∈ step state action, relation state action next ∧ Along relation next rest

section Rules

variable (condition : State → Action → Prop) (inv : State → Prop)
  (kept : ∀ state action next, inv state → condition state action →
    step state action = some next → inv next)
  {state : State} {actions : List Action} (initial : inv state)

include kept initial

/-- The invariant rule. What every admissible step keeps, every admissible run keeps. -/
theorem invariant {final : State} (meets : Meets step condition state actions)
    (reached : run step state actions = some final) : inv final := by
  induction actions generalizing state with
  | nil =>
      cases reached
      exact initial
  | cons action rest ih =>
      obtain ⟨next, taken, remaining⟩ := (run_cons_eq_some step).mp reached
      exact ih (kept state action next initial meets.1 taken) (meets.2 next taken) remaining

/-- A relation holds along a run when the invariant and the condition give it at each step. -/
theorem along_of_invariant (relation : State → Action → State → Prop)
    (holds : ∀ state action next, inv state → condition state action →
      step state action = some next → relation state action next)
    (meets : Meets step condition state actions) : Along step relation state actions := by
  induction actions generalizing state with
  | nil => trivial
  | cons action rest ih =>
      intro next taken
      exact ⟨holds state action next initial meets.1 taken,
        ih (kept state action next initial meets.1 taken) (meets.2 next taken)⟩

end Rules

/-- The rule for an invariant that every step keeps. -/
theorem invariant_always (inv : State → Prop)
    (kept : ∀ state action next, inv state → step state action = some next → inv next)
    {state final : State} {actions : List Action} (initial : inv state)
    (reached : run step state actions = some final) : inv final :=
  invariant step (fun _ _ => True) inv
    (fun state action next holds _ taken => kept state action next holds taken) initial
    (Meets.of_forall step (fun _ _ => trivial) state actions) reached

/-- Relations that agree on every step from the invariant agree along every run. -/
theorem along_congr (inv : State → Prop)
    (kept : ∀ state action next, inv state → step state action = some next → inv next)
    (first second : State → Action → State → Prop)
    (agree : ∀ state action next, inv state → step state action = some next →
      (first state action next ↔ second state action next))
    {state : State} {actions : List Action} (initial : inv state) :
    Along step first state actions ↔ Along step second state actions := by
  induction actions generalizing state with
  | nil => exact Iff.rfl
  | cons action rest ih =>
      refine forall₂_congr fun next taken => and_congr (agree state action next initial taken) ?_
      exact ih (kept state action next initial taken)

/-- A relation on steps that says the same as a condition on the states before them. The
invariant need only last as long as the condition is met. -/
theorem along_iff_meets (inv : State → Prop) (relation : State → Action → State → Prop)
    (condition : State → Action → Prop)
    (kept : ∀ state action next, inv state → condition state action →
      step state action = some next → inv next)
    (agree : ∀ state action, inv state →
      ((∀ next ∈ step state action, relation state action next) ↔ condition state action))
    {state : State} {actions : List Action} (initial : inv state) :
    Along step relation state actions ↔ Meets step condition state actions := by
  induction actions generalizing state with
  | nil => exact Iff.rfl
  | cons action rest ih =>
      have here := agree state action initial
      constructor
      · intro along
        have met := here.mp fun next taken => (along next taken).1
        refine ⟨met, fun next taken => ?_⟩
        exact (ih (kept state action next initial met taken)).mp (along next taken).2
      · intro meets next taken
        refine ⟨here.mpr meets.1 next taken, ?_⟩
        exact (ih (kept state action next initial meets.1 taken)).mpr (meets.2 next taken)

/-- The simulation rule. Where each step of one system is a run of the other, each run is. -/
theorem simulation {Other Move : Type} (other : Other → Move → Option Other)
    (related : State → Other → Prop) (condition : State → Action → Prop)
    (follows : ∀ state whole action next, related state whole → condition state action →
      step state action = some next → ∃ moves after, run other whole moves = some after ∧
        related next after)
    {state final : State} {whole : Other} {actions : List Action} (initial : related state whole)
    (meets : Meets step condition state actions) (reached : run step state actions = some final) :
    ∃ moves after, run other whole moves = some after ∧ related final after := by
  induction actions generalizing state whole with
  | nil =>
      cases reached
      exact ⟨[], whole, rfl, initial⟩
  | cons action rest ih =>
      obtain ⟨next, taken, remaining⟩ := (run_cons_eq_some step).mp reached
      obtain ⟨first, between, early, kept⟩ := follows state whole action next initial meets.1 taken
      obtain ⟨moves, after, late, ends⟩ := ih kept (meets.2 next taken) remaining
      refine ⟨first ++ moves, after, ?_, ends⟩
      rw [run_append, early, Option.bind_some, late]

/-- The ranking rule. A run whose steps each lower the rank is no longer than the rank. -/
theorem length_le_rank (condition : State → Action → Prop) (inv : State → Prop)
    (rank : State → Nat)
    (kept : ∀ state action next, inv state → condition state action →
      step state action = some next → inv next)
    (lowers : ∀ state action next, inv state → condition state action →
      step state action = some next → rank next < rank state)
    {state final : State} {actions : List Action} (initial : inv state)
    (meets : Meets step condition state actions)
    (reached : run step state actions = some final) : actions.length ≤ rank state := by
  induction actions generalizing state with
  | nil => exact Nat.zero_le _
  | cons action rest ih =>
      obtain ⟨next, taken, remaining⟩ := (run_cons_eq_some step).mp reached
      have shorter := ih (kept state action next initial meets.1 taken) (meets.2 next taken) remaining
      have lower := lowers state action next initial meets.1 taken
      rw [List.length_cons]
      omega

/-- A system that can move on until it rests, by actions each of which lowers the rank, comes to
rest by such actions. -/
theorem exists_rest (good : Action → Prop) (rank : State → Nat) (rests : State → Prop)
    (lowers : ∀ state action next, good action → step state action = some next →
      rank next < rank state)
    (moves : ∀ state, ¬ rests state → ∃ action next, good action ∧ step state action = some next)
    (state : State) : ∃ more final, (∀ action ∈ more, good action) ∧
      run step state more = some final ∧ rests final := by
  induction height : rank state using Nat.strongRecOn generalizing state with
  | _ height ih =>
      by_cases done : rests state
      · exact ⟨[], state, by simp, rfl, done⟩
      · obtain ⟨action, next, right, taken⟩ := moves state done
        have lower := lowers state action next right taken
        obtain ⟨more, final, all, reached, rest⟩ := ih (rank next) (height ▸ lower) next rfl
        exact ⟨action :: more, final, List.forall_mem_cons.mpr ⟨right, all⟩,
          (run_cons_eq_some step).mpr ⟨next, taken, reached⟩, rest⟩

/-- The rule for an invariant that tells of the actions so far. -/
theorem invariant_history (inv : List Action → State → Prop)
    (kept : ∀ past state action next, inv past state → step state action = some next →
      inv (past ++ [action]) next)
    {state final : State} {actions : List Action} (initial : inv [] state)
    (reached : run step state actions = some final) : inv actions final := by
  suffices after : ∀ past, inv past state → inv (past ++ actions) final from after [] initial
  clear initial
  induction actions generalizing state with
  | nil =>
      intro past holds
      cases reached
      rwa [List.append_nil]
  | cons action rest ih =>
      intro past holds
      obtain ⟨next, taken, remaining⟩ := (run_cons_eq_some step).mp reached
      have later := ih remaining (past ++ [action]) (kept past state action next holds taken)
      rwa [List.append_assoc] at later

section Trajectory

/-- The state after the first actions of a run, and the last state once there are no more. -/
def trajectory (state : State) (actions : List Action) (moment : Nat) : State :=
  (run step state (actions.take moment)).getD state

variable {state final : State} {actions : List Action}
  (reached : run step state actions = some final)

theorem trajectory_zero : trajectory step state actions 0 = state := by
  rw [trajectory, List.take_zero, run_nil, Option.getD_some]

include reached

theorem run_take (moment : Nat) :
    run step state (actions.take moment) = some (trajectory step state actions moment) := by
  have whole := reached
  rw [← List.take_append_drop moment actions, run_append] at whole
  obtain ⟨next, taken, -⟩ := Option.bind_eq_some_iff.mp whole
  rw [trajectory, taken, Option.getD_some]

theorem trajectory_last {moment : Nat} (past : actions.length ≤ moment) :
    trajectory step state actions moment = final := by
  rw [trajectory, List.take_of_length_le past, reached, Option.getD_some]

theorem trajectory_step {moment : Nat} (inside : moment < actions.length) :
    step (trajectory step state actions moment) actions[moment] =
      some (trajectory step state actions (moment + 1)) := by
  have longer := run_take step reached (moment + 1)
  rw [List.take_succ_eq_append_getElem inside, run_append, run_take step reached moment,
    Option.bind_some] at longer
  obtain ⟨next, taken, same⟩ := (run_cons_eq_some step).mp longer
  cases same
  exact taken

/-- The rule for what holds at each moment of a run. -/
theorem trajectory_invariant {holds : Nat → State → Prop} (initial : holds 0 state)
    (kept : ∀ moment action next, holds moment (trajectory step state actions moment) →
      step (trajectory step state actions moment) action = some next →
      next = trajectory step state actions (moment + 1) → holds (moment + 1) next)
    {moment : Nat} (inside : moment ≤ actions.length) :
    holds moment (trajectory step state actions moment) := by
  induction moment with
  | zero =>
      rw [trajectory_zero]
      exact initial
  | succ moment ih =>
      exact kept moment _ _ (ih (Nat.le_of_succ_le inside)) (trajectory_step step reached inside) rfl

end Trajectory

end Transition
