import Chmicro.AppMoves

set_option autoImplicit false

namespace Chmicro.App

/-- No call of `Stop` sets `stopped_` before `Run` has cleared it. -/
def SetAfterClear (app : App) : Action → Prop
  | .stop call => app.stops[call]? = some .setStopped → app.run.Cleared
  | _ => True

instance (app : App) : (action : Action) → Decidable (SetAfterClear app action)
  | .run | .callStop => isTrue trivial
  | .stop call =>
      inferInstanceAs (Decidable (app.stops[call]? = some .setStopped → app.run.Cleared))

/-- A call that has finished has left `stopped_` set, and `Run` does not clear it again. -/
def Noticed (app : App) : Prop :=
  .finished ∈ app.stops → app.run.Cleared ∧ app.stopped = true

theorem mem_set_of_ne {calls : List StopPc} {call : Nat} {next : StopPc}
    (member : .finished ∈ calls.set call next) (other : next ≠ .finished) :
    .finished ∈ calls := by
  rcases List.mem_or_eq_of_mem_set member with old | new
  · exact old
  · exact (other new.symm).elim

theorem Noticed.step {app after : App} {action : Action} (noticed : Noticed app)
    (timely : SetAfterClear app action) (taken : app.step action = some after) :
    Noticed after := by
  intro finished
  cases step_moves taken with
  | registers at_ =>
      have before := noticed finished
      simp [at_, RunPc.Cleared] at before
  | clears at_ =>
      have before := noticed finished
      simp [at_, RunPc.Cleared] at before
  | forgets at_ => exact ⟨trivial, (noticed finished).2⟩
  | listens at_ => exact ⟨trivial, (noticed finished).2⟩
  | startsPool at_ => exact ⟨trivial, (noticed finished).2⟩
  | starts index server at_ listed => exact ⟨trivial, (noticed finished).2⟩
  | waits index at_ all => exact ⟨trivial, (noticed finished).2⟩
  | returns at_ stopped => exact ⟨trivial, stopped⟩
  | calls => exact noticed (by simpa using finished)
  | refuses call at_ requested => exact noticed (mem_set_of_ne finished (by simp))
  | wins call at_ first => exact noticed (mem_set_of_ne finished (by simp))
  | stops call index server at_ listed => exact noticed (mem_set_of_ne finished (by simp))
  | stopped call index at_ all => exact noticed (mem_set_of_ne finished (by simp))
  | stopsPool call at_ => exact noticed (mem_set_of_ne finished (by simp))
  | finishes call at_ => exact ⟨timely at_, rfl⟩

/-- When no call sets `stopped_` too early, a call that has performed its shutdown has left it
set, and `Run` gets past its wait. -/
theorem stop_not_lost (servers : List ServerId) (contexts : List IoContext)
    (stopped stopRequested : Bool) (actions : List Action) (app : App)
    (reached : Transition.run step (begin servers contexts stopped stopRequested) actions = some app)
    (timely : Transition.Meets step SetAfterClear
      (begin servers contexts stopped stopRequested) actions)
    (finished : .finished ∈ app.stops) :
    app.stopped = true ∧
      (app.run = .wait → ∃ after, app.step .run = some after ∧ after.run = .returned) := by
  have noticed : Noticed app := Transition.invariant step SetAfterClear Noticed
    (fun _ _ _ noticed timely taken => noticed.step timely taken)
    (fun impossible => by cases impossible) timely reached
  have set := (noticed finished).2
  exact ⟨set, fun waiting => ⟨{ app with registered := false, run := .returned },
    by simp only [step, stepRun, waiting, set, ↓reduceIte], rfl⟩⟩

theorem stop_not_lost_at_wait :
    ∃ app, Transition.run step (begin [0] [{}] false false) (runToWait ++ wholeStop 0) = some app ∧
      app.stopped = true ∧
      (app.run = .wait → ∃ after, app.step .run = some after ∧ after.run = .returned) :=
  ⟨_, rfl, stop_not_lost [0] [{}] false false (runToWait ++ wholeStop 0) _ rfl (by decide)
    (by decide)⟩

/-- A call of `Stop` that falls between the registration and the reset is lost. -/
theorem early_stop_lost :
    ∃ app, Transition.run step (begin [0] [{}] false false)
        (.run :: wholeStop 0 ++ runToWait.tail) = some app ∧
      app.run = .wait ∧ .finished ∈ app.stops ∧ app.stopped = false :=
  ⟨_, rfl, rfl, by decide, rfl⟩

end Chmicro.App
