import Mathlib.Logic.Function.Basic
import Chmicro.Transition

set_option autoImplicit false

namespace Chmicro

/-- The address of an `App`, which a later object may have again. -/
abbrev AppId := Nat

/-- One `App`, as far as its registration goes. `stopCalled` is no field of the source: it
says whether `Stop` was called since `Run` began. -/
structure AppLife where
  running : Bool := false
  registered : Bool := false
  stopRequested : Bool := false
  stopped : Bool := false
  stopCalled : Bool := false
  deriving DecidableEq, Repr

/-- The `App` was registered by its own `Run`, which is still running and was not stopped. -/
def AppLife.Serving (life : AppLife) : Prop :=
  life.running = true ∧ life.registered = true ∧ life.stopCalled = false

/-- The objects there are, and the global pointer that the console handler reads. -/
structure Apps where
  gApp : Option AppId := none
  apps : AppId → Option AppLife := fun _ => none

namespace Apps

inductive Action where
  | construct (id : AppId)
  | beginRun (id : AppId)
  | stop (id : AppId)
  | endRun (id : AppId)
  | destroy (id : AppId)
  deriving DecidableEq, Repr

def Action.app : Action → AppId
  | .construct id | .beginRun id | .stop id | .endRun id | .destroy id => id

def set (apps : Apps) (id : AppId) (life : Option AppLife) : Apps :=
  { apps with apps := Function.update apps.apps id life }

/-- The registration sets the global pointer when it is null. Then `Run` resets the flags. -/
def beginRun (apps : Apps) (id : AppId) : Apps :=
  if apps.gApp = none then
    { apps.set id (some { running := true, registered := true }) with gApp := some id }
  else
    apps.set id (some { running := true })

/-- Whoever is registered, the call that wins the exchange clears the global pointer. -/
def stop (apps : Apps) (id : AppId) (life : AppLife) : Apps :=
  if life.stopRequested then
    apps.set id (some { life with stopCalled := true })
  else
    { apps.set id (some { life with
        stopRequested := true, stopped := true, stopCalled := true }) with gApp := none }

/-- The registration's destructor clears the global pointer only where it still is its own. -/
def endRun (apps : Apps) (id : AppId) (life : AppLife) : Apps :=
  let after := apps.set id (some { life with running := false, registered := false })
  if life.registered ∧ apps.gApp = some id then { after with gApp := none } else after

/-- `Run` returns once `stopped_` is set. An object is destroyed when its `Run` has returned,
and its destructor calls `Stop`. -/
def step (apps : Apps) : Action → Option Apps
  | .construct id =>
      match apps.apps id with
      | none => some (apps.set id (some {}))
      | some _ => none
  | .beginRun id =>
      match apps.apps id with
      | some life => if life.running then none else some (apps.beginRun id)
      | none => none
  | .stop id => (apps.apps id).map (apps.stop id)
  | .endRun id =>
      match apps.apps id with
      | some life => if life.running ∧ life.stopped then some (apps.endRun id life) else none
      | none => none
  | .destroy id =>
      match apps.apps id with
      | some life => if life.running then none else some ((apps.stop id life).set id none)
      | none => none

open Transition

/-- An `App` that runs, registered and not stopped, is the one `g_app` points to, and no call
of another `App` moves the pointer meanwhile. -/
structure Kept (before : Apps) (action : Action) (after : Apps) : Prop where
  points : ∀ id life, after.apps id = some life → life.Serving → after.gApp = some id
  frame : ∀ id life, before.apps id = some life → life.Serving → action.app ≠ id →
    after.gApp = before.gApp

/-- A call of `Stop` that wins its exchange, a destructor's too, finds no other `App` in `g_app`. -/
def SparesOthers (apps : Apps) : Action → Prop
  | .stop id => ∀ life, apps.apps id = some life → life.stopRequested = false →
      ∀ other, apps.gApp = some other → other = id
  | .destroy id => ∀ life, apps.apps id = some life → life.running = false →
      life.stopRequested = false → ∀ other, apps.gApp = some other → other = id
  | _ => True

structure Owned (apps : Apps) : Prop where
  points : ∀ id life, apps.apps id = some life → life.Serving → apps.gApp = some id
  owner : ∀ id, apps.gApp = some id → ∃ life, apps.apps id = some life ∧ life.Serving
  fresh : ∀ id life, apps.apps id = some life → life.Serving →
    life.stopRequested = false ∧ life.stopped = false

/-- One `App` changes, and the pointer changes at most between null and that `App`. -/
theorem Owned.set {apps : Apps} (owned : Owned apps) (id : AppId) (life : Option AppLife)
    (gApp : Option AppId)
    (points : ∀ now, life = some now → now.Serving →
      gApp = some id ∧ now.stopRequested = false ∧ now.stopped = false)
    (owner : gApp = some id → ∃ now, life = some now ∧ now.Serving)
    (others : ∀ other, other ≠ id → (gApp = some other ↔ apps.gApp = some other)) :
    Owned { apps.set id life with gApp } := by
  constructor
  · intro other now found serving
    by_cases here : other = id
    · subst here
      have changed : life = some now := by simpa [Apps.set] using found
      exact (points now changed serving).1
    · have same : apps.apps other = some now := by simpa [Apps.set, here] using found
      exact (others other here).mpr (owned.points other now same serving)
  · intro other pointed
    by_cases here : other = id
    · subst here
      obtain ⟨now, changed, serving⟩ := owner pointed
      exact ⟨now, by simpa [Apps.set] using changed, serving⟩
    · obtain ⟨now, same, serving⟩ := owned.owner other ((others other here).mp pointed)
      exact ⟨now, by simpa [Apps.set, here] using same, serving⟩
  · intro other now found serving
    by_cases here : other = id
    · subst here
      have changed : life = some now := by simpa [Apps.set] using found
      exact (points now changed serving).2
    · have same : apps.apps other = some now := by simpa [Apps.set, here] using found
      exact owned.fresh other now same serving

/-- The pointer stays as it is, and the `App` that changes is not the registered one. -/
theorem Owned.set_unregistered {apps : Apps} (owned : Owned apps) {id : AppId}
    {life : Option AppLife} (idle : ∀ now, life = some now → ¬ now.Serving)
    (unregistered : apps.gApp ≠ some id) : Owned (apps.set id life) := by
  apply owned.set id life apps.gApp
  · intro now changed serving
    exact (idle now changed serving).elim
  · intro registered
    exact (unregistered registered).elim
  · intro other _
    exact Iff.rfl

theorem Owned.set_cleared {apps : Apps} (owned : Owned apps) {id : AppId}
    {life : Option AppLife} (idle : ∀ now, life = some now → ¬ now.Serving)
    (spares : ∀ other, apps.gApp = some other → other = id) :
    Owned { apps.set id life with gApp := none } := by
  apply owned.set id life none
  · intro now changed serving
    exact (idle now changed serving).elim
  · intro impossible
    cases impossible
  · intro other elsewhere
    have unregistered : apps.gApp ≠ some other := fun pointed => elsewhere (spares other pointed)
    simp [unregistered]

theorem Owned.unregistered {apps : Apps} (owned : Owned apps) {id : AppId} {life : AppLife}
    (found : apps.apps id = some life) (idle : ¬ life.Serving) : apps.gApp ≠ some id := by
  intro registered
  obtain ⟨now, same, serving⟩ := owned.owner id registered
  rw [found] at same
  cases same
  exact idle serving

theorem Owned.beginRun {apps : Apps} (owned : Owned apps) {id : AppId} {life : AppLife}
    (found : apps.apps id = some life) (idle : life.running = false) :
    Owned (apps.beginRun id) := by
  unfold Apps.beginRun
  split
  · rename_i free
    apply owned.set
    · intro now changed _
      cases changed
      exact ⟨rfl, rfl, rfl⟩
    · intro _
      exact ⟨_, rfl, rfl, rfl, rfl⟩
    · intro other elsewhere
      simp [free, Ne.symm elsewhere]
  · have unregistered := owned.unregistered found (by simp [AppLife.Serving, idle])
    apply owned.set_unregistered _ unregistered
    intro now changed
    cases changed
    simp [AppLife.Serving]

theorem Owned.stop {apps : Apps} (owned : Owned apps) {id : AppId} {life : AppLife}
    (found : apps.apps id = some life)
    (spares : life.stopRequested = false → ∀ other, apps.gApp = some other → other = id) :
    Owned (apps.stop id life) := by
  unfold Apps.stop
  split
  · rename_i requested
    have idle : ¬ life.Serving := by
      intro serving
      have fresh := (owned.fresh id life found serving).1
      rw [requested] at fresh
      cases fresh
    apply owned.set_unregistered _ (owned.unregistered found idle)
    intro now changed
    cases changed
    simp [AppLife.Serving]
  · rename_i first
    apply owned.set_cleared _ (spares (by simpa using first))
    intro now changed
    cases changed
    simp [AppLife.Serving]

theorem Owned.endRun {apps : Apps} (owned : Owned apps) {id : AppId} {life : AppLife}
    (found : apps.apps id = some life) (stopped : life.stopped = true) :
    Owned (apps.endRun id life) := by
  have idle : ¬ life.Serving := by
    intro serving
    have fresh := (owned.fresh id life found serving).2
    rw [stopped] at fresh
    cases fresh
  have unregistered := owned.unregistered found idle
  have kept : ¬ (life.registered = true ∧ apps.gApp = some id) := fun both => unregistered both.2
  simp only [Apps.endRun, kept, ↓reduceIte]
  apply owned.set_unregistered _ unregistered
  intro now changed
  cases changed
  simp [AppLife.Serving]

theorem stop_set_none (apps : Apps) (id : AppId) (life : AppLife) :
    (apps.stop id life).set id none =
      { apps.set id none with gApp := if life.stopRequested then apps.gApp else none } := by
  unfold stop
  split <;> simp [set]

/-- Every way the objects and their calls move. -/
inductive Moves (apps : Apps) : Action → Apps → Prop where
  | constructs (id : AppId) (absent : apps.apps id = none) :
      Moves apps (.construct id) (apps.set id (some {}))
  | begins (id : AppId) (life : AppLife) (found : apps.apps id = some life)
      (idle : life.running = false) : Moves apps (.beginRun id) (apps.beginRun id)
  | stops (id : AppId) (life : AppLife) (found : apps.apps id = some life) :
      Moves apps (.stop id) (apps.stop id life)
  | ends (id : AppId) (life : AppLife) (found : apps.apps id = some life)
      (stopped : life.stopped = true) : Moves apps (.endRun id) (apps.endRun id life)
  | destroys (id : AppId) (life : AppLife) (found : apps.apps id = some life)
      (idle : life.running = false) :
      Moves apps (.destroy id)
        { apps.set id none with gApp := if life.stopRequested then apps.gApp else none }

theorem step_moves {apps after : Apps} {action : Action} (taken : apps.step action = some after) :
    Moves apps action after := by
  cases action with
  | construct id =>
      simp only [step] at taken
      split at taken
      · rename_i absent
        cases taken
        exact .constructs id absent
      · cases taken
  | beginRun id =>
      simp only [step] at taken
      split at taken
      · rename_i life found
        split at taken
        · cases taken
        · rename_i idle
          cases taken
          exact .begins id life found (by simpa using idle)
      · cases taken
  | stop id =>
      obtain ⟨life, found, rfl⟩ := Option.map_eq_some_iff.mp taken
      exact .stops id life found
  | endRun id =>
      simp only [step] at taken
      split at taken
      · rename_i life found
        split at taken
        · rename_i ready
          cases taken
          exact .ends id life found ready.2
        · cases taken
      · cases taken
  | destroy id =>
      simp only [step] at taken
      split at taken
      · rename_i life found
        split at taken
        · cases taken
        · rename_i idle
          cases taken
          rw [stop_set_none]
          exact .destroys id life found (by simpa using idle)
      · cases taken

theorem set_other (apps : Apps) {id other : AppId} (elsewhere : id ≠ other)
    (life : Option AppLife) : (apps.set id life).apps other = apps.apps other := by
  simp [set, Ne.symm elsewhere]

/-- A step changes one object. -/
theorem Moves.frame {apps after : Apps} {action : Action} (moves : Moves apps action after)
    {other : AppId} (elsewhere : action.app ≠ other) : after.apps other = apps.apps other := by
  cases moves with
  | constructs id absent => exact apps.set_other elsewhere _
  | begins id life found idle =>
      unfold beginRun
      split <;> exact apps.set_other elsewhere _
  | stops id life found =>
      unfold stop
      split <;> exact apps.set_other elsewhere _
  | ends id life found stopped =>
      simp only [endRun]
      split <;> exact apps.set_other elsewhere _
  | destroys id life found idle => exact apps.set_other elsewhere _

theorem Owned.step {apps after : Apps} {action : Action} (owned : Owned apps)
    (spares : SparesOthers apps action) (moves : Moves apps action after) : Owned after := by
  cases moves with
  | constructs id absent =>
      apply owned.set_unregistered
      · intro now changed
        cases changed
        simp [AppLife.Serving]
      · intro registered
        obtain ⟨now, same, -⟩ := owned.owner id registered
        rw [absent] at same
        cases same
  | begins id life found idle => exact owned.beginRun found idle
  | stops id life found => exact owned.stop found (spares life found)
  | ends id life found stopped => exact owned.endRun found stopped
  | destroys id life found idle =>
      have gone : ∀ now, (none : Option AppLife) = some now → ¬ now.Serving :=
        fun _ impossible => (by cases impossible)
      have unregistered := owned.unregistered found (by simp [AppLife.Serving, idle])
      cases requested : life.stopRequested with
      | true => exact owned.set_unregistered gone unregistered
      | false => exact owned.set_cleared gone (spares life found idle requested)

theorem Owned.kept {before after : Apps} {action : Action} (owned : Owned before)
    (next : Owned after) (moves : Moves before action after) : Kept before action after where
  points := next.points
  frame := by
    intro id life found serving elsewhere
    have same : after.apps id = some life := (moves.frame elsewhere).trans found
    rw [next.points id life same serving, owned.points id life found serving]

/-- Clearing the pointer of another `App` that is served leaves that `App` unreachable. -/
theorem Owned.spares {before after : Apps} {action : Action} (owned : Owned before)
    (kept : Kept before action after) (cleared : after.gApp = none) :
    ∀ other, before.gApp = some other → other = action.app := by
  intro other pointed
  by_contra elsewhere
  obtain ⟨life, found, serving⟩ := owned.owner other pointed
  have same := kept.frame other life found serving (Ne.symm elsewhere)
  rw [cleared, pointed] at same
  cases same

/-- The registered `App` keeps its registration, throughout a history, just when no call of
`Stop` of another one clears the pointer. -/
theorem registration_kept_iff (actions : List Action) :
    Along step Kept {} actions ↔ Meets step SparesOthers {} actions := by
  apply along_iff_meets step Owned
  · intro before action after owned spares taken
    exact owned.step spares (step_moves taken)
  · intro before action owned
    constructor
    · intro keeps
      cases action with
      | construct | beginRun | endRun => trivial
      | stop id =>
          intro life found first
          have taken : before.step (.stop id) = some (before.stop id life) := by
            simp only [Apps.step, found, Option.map_some]
          apply owned.spares (keeps _ taken)
          simp [stop, first]
      | destroy id =>
          intro life found idle first
          have taken : before.step (.destroy id) = some ((before.stop id life).set id none) := by
            simp [Apps.step, found, idle]
          apply owned.spares (keeps _ taken)
          simp [stop_set_none, first]
    · intro spares after taken
      have moves := step_moves taken
      exact owned.kept (owned.step spares moves) moves
  · exact ⟨fun _ _ impossible => (by cases impossible), fun _ impossible => (by cases impossible),
      fun _ _ impossible => (by cases impossible)⟩

/-- An `App` that never ran is destroyed, and the running one is no longer registered. -/
theorem destructor_unregisters_running_app :
    ∃ before after, run step {} [.construct 0, .construct 1, .beginRun 0] = some before ∧
      before.step (.destroy 1) = some after ∧
      before.gApp = some 0 ∧ after.gApp = none ∧
      after.apps 0 = some { running := true, registered := true } :=
  ⟨_, _, rfl, rfl, rfl, rfl, rfl⟩

end Apps

end Chmicro
