import Chmicro.AppStop
import Chmicro.AppThreadsMoves

set_option autoImplicit false

namespace Chmicro

/-- The step of a call of `Stop` for which `IoContextPool::Stop` is one step, made when the call
claims the pool. -/
def ShutdownPc.whole : ShutdownPc → StopPc
  | .exchange => .exchange
  | .stopServer index => .stopServer index
  | .claimPool => .stopPool
  | .resetGuard _ | .stopContext _ | .join _ | .clearWorkers | .setStopped => .setStopped
  | .finished => .finished
  | .refused => .refused

namespace AppThreads

/-- The application as its threads see it, and the one in which the pool stops at once. The
workers are left out: the threads have them until they are joined. -/
structure Refines (app : AppThreads) (whole : App) : Prop where
  servers : whole.servers = app.servers
  stopRequested : whole.stopRequested = app.stopRequested
  stopped : whole.stopped = app.stopped
  started : whole.pool.started = app.started
  run : whole.run = app.run
  stops : whole.stops = app.stops.map fun stop => stop.pc.whole

theorem begin_refines (servers : List ServerId) (ioThreads signalContext : Nat) :
    Refines (begin servers ioThreads signalContext)
      (App.begin servers (List.replicate ioThreads {}) false false) :=
  ⟨rfl, rfl, rfl, rfl, rfl, rfl⟩

theorem startPool_flags (app : AppThreads) :
    app.startPool.servers = app.servers ∧ app.startPool.stopRequested = app.stopRequested ∧
      app.startPool.stopped = app.stopped ∧ app.startPool.started = true ∧
      app.startPool.stops = app.stops := by
  unfold startPool
  split
  · rename_i started
    exact ⟨rfl, rfl, rfl, started, rfl⟩
  · exact ⟨rfl, rfl, rfl, rfl, rfl⟩

/-- Both make the same step of `Run`. -/
theorem Refines.stepRun {app after : AppThreads} {whole : App} (refines : Refines app whole)
    (taken : app.stepRun = some after) :
    ∃ next, whole.step .run = some next ∧ Refines after next := by
  change ∃ next, whole.stepRun = some next ∧ Refines after next
  rw [App.stepRun, refines.run]
  rw [AppThreads.stepRun] at taken
  cases pc : app.run with
  | registerApp | awaitSignals =>
      rw [pc] at taken
      cases taken
      exact ⟨_, rfl, { refines with run := rfl }⟩
  | resetStopped =>
      rw [pc] at taken
      cases taken
      exact ⟨_, rfl, { refines with run := rfl, stopped := rfl }⟩
  | resetRequested =>
      rw [pc] at taken
      cases taken
      exact ⟨_, rfl, { refines with run := rfl, stopRequested := rfl }⟩
  | startPool =>
      rw [pc] at taken
      cases taken
      obtain ⟨servers, requested, stopped, started, stops⟩ := app.startPool_flags
      refine ⟨_, rfl, ?_⟩
      constructor
      · exact refines.servers.trans servers.symm
      · exact refines.stopRequested.trans requested.symm
      · exact refines.stopped.trans stopped.symm
      · exact (IoContextPool.start_started whole.pool).trans started.symm
      · rfl
      · exact refines.stops.trans (by rw [stops])
  | startServer index =>
      rw [pc] at taken
      dsimp only at taken ⊢
      rw [refines.servers]
      cases listed : app.servers[index]? with
      | some server =>
          rw [listed] at taken
          cases taken
          exact ⟨_, rfl, { refines with run := rfl }⟩
      | none =>
          rw [listed] at taken
          cases taken
          exact ⟨_, rfl, { refines with run := rfl, servers := rfl }⟩
  | wait =>
      rw [pc] at taken
      obtain ⟨stopped, moved⟩ := Option.ite_none_right_eq_some.mp taken
      cases moved
      have seen : whole.stopped = true := refines.stopped.trans stopped
      exact ⟨_, if_pos seen, { refines with run := rfl }⟩
  | returned =>
      rw [pc] at taken
      cases taken

/-- A new call of `Stop`, on whichever thread. -/
theorem Refines.call {app : AppThreads} {whole : App} (refines : Refines app whole)
    (thread : Thread) (signal : SignalWait) (workers : List WorkerPc) :
    ∃ next, whole.step .callStop = some next ∧
      Refines { app with signal, workers, stops := app.stops ++ [⟨thread, .exchange⟩] } next := by
  refine ⟨_, rfl, { refines with stops := ?_ }⟩
  dsimp only
  rw [refines.stops, List.map_append]
  rfl

section Stop

variable {app after : AppThreads} {whole : App} {call : Nat} {thread : Thread}
  {pc next : ShutdownPc}

theorem Refines.stop_at (refines : Refines app whole) (at_ : app.stops[call]? = some ⟨thread, pc⟩) :
    whole.stops[call]? = some pc.whole := by
  rw [refines.stops, List.getElem?_map, at_, Option.map_some]

/-- A step inside `IoContextPool::Stop` is none of the whole application. -/
theorem Refines.within (refines : Refines app whole) (at_ : app.stops[call]? = some ⟨thread, pc⟩)
    {contexts : List IoContext} {workers : List WorkerPc} (now : ShutdownPc)
    (same : now.whole = pc.whole) :
    Refines { app with contexts, workers, stops := app.stops.set call ⟨thread, now⟩ } whole := by
  refine { refines with stops := ?_ }
  obtain ⟨inside, found⟩ := List.getElem?_eq_some_iff.mp (refines.stop_at at_)
  rw [List.map_set, ← refines.stops, same, ← found, List.set_getElem_self]

/-- A step of `Stop` that both make. -/
theorem Refines.answers (refines : Refines app whole)
    (at_ : app.stops[call]? = some ⟨thread, pc⟩) {middle : App}
    (stepped : whole.stepStop pc.whole = some (middle, next.whole))
    (kept : Refines { after with stops := app.stops } { middle with stops := whole.stops }) :
    ∃ steps final, Transition.run App.step whole steps = some final ∧
      Refines { after with stops := app.stops.set call ⟨thread, next⟩ } final := by
  have standing := refines.stop_at at_
  refine ⟨[.stop call], { middle with stops := whole.stops.set call next.whole }, ?_,
    { kept with stops := ?_ }⟩
  · simp [Transition.run_cons, App.step, standing, stepped]
  · dsimp only
    rw [refines.stops, List.map_set]

/-- Each step of a call of `Stop` is one of the whole application, or none. -/
theorem Refines.stepStop (refines : Refines app whole)
    (at_ : app.stops[call]? = some ⟨thread, pc⟩) (moves : StopMoves app pc after next) :
    ∃ steps final, Transition.run App.step whole steps = some final ∧
      Refines { after with stops := app.stops.set call ⟨thread, next⟩ } final := by
  cases moves with
  | refuses requested =>
      have refused : whole.stopRequested = true := refines.stopRequested.trans requested
      have stepped : whole.stepStop .exchange = some (whole, .refused) := if_pos refused
      exact refines.answers at_ stepped { refines with }
  | wins first =>
      have open_ : ¬ whole.stopRequested = true := refines.stopRequested ▸ first
      have stepped : whole.stepStop .exchange =
          some ({ whole with stopRequested := true, registered := false }, .stopServer 0) :=
        if_neg open_
      exact refines.answers at_ stepped { refines with stopRequested := rfl }
  | stops index inside =>
      have listed : whole.servers[index]? = some app.servers[index] := by
        rw [refines.servers, List.getElem?_eq_getElem inside]
      have stepped : whole.stepStop (.stopServer index) =
          some (whole.setUp app.servers[index] false, .stopServer (index + 1)) := by
        simp only [App.stepStop, listed]
      exact refines.answers at_ stepped { refines with }
  | stopped index all =>
      have none_left : whole.servers[index]? = none :=
        List.getElem?_eq_none (refines.servers ▸ all)
      have stepped : whole.stepStop (.stopServer index) = some (whole, .stopPool) := by
        simp only [App.stepStop, none_left]
      exact refines.answers at_ stepped { refines with }
  | claims started =>
      exact refines.answers at_ rfl
        { refines with started := IoContextPool.stop_started whole.pool }
  | skips idle =>
      have idle := Bool.eq_false_iff.mpr idle
      exact refines.answers at_ rfl
        { refines with started := (IoContextPool.stop_started whole.pool).trans idle.symm }
  | releases index inside =>
      exact ⟨[], whole, rfl, refines.within at_ (.resetGuard (index + 1)) rfl⟩
  | released index => exact ⟨[], whole, rfl, refines.within at_ (.stopContext 0) rfl⟩
  | halts index inside =>
      exact ⟨[], whole, rfl, refines.within at_ (.stopContext (index + 1)) rfl⟩
  | halted index all => exact ⟨[], whole, rfl, refines.within at_ (.join 0) rfl⟩
  | joins index inside => exact ⟨[], whole, rfl, refines.within at_ (.join (index + 1)) rfl⟩
  | joined index => exact ⟨[], whole, rfl, refines.within at_ .clearWorkers rfl⟩
  | clears => exact ⟨[], whole, rfl, refines.within at_ .setStopped rfl⟩
  | sets => exact refines.answers at_ rfl { refines with stopped := rfl }

end Stop

theorem Refines.step {app after : AppThreads} {whole : App} {action : Action}
    (refines : Refines app whole) (taken : app.step action = some after) :
    ∃ steps final, Transition.run App.step whole steps = some final ∧ Refines after final := by
  cases step_moves taken with
  | runs ran =>
      obtain ⟨next, moved, kept⟩ := refines.stepRun ran
      exact ⟨[.run], next, by simp [Transition.run_cons, moved], kept⟩
  | calls =>
      obtain ⟨next, moved, kept⟩ := refines.call .other app.signal app.workers
      exact ⟨[.callStop], next, by simp [Transition.run_cons, moved], kept⟩
  | stops call at_ moves => exact refines.stepStop at_ moves
  | dispatches running =>
      obtain ⟨next, moved, kept⟩ := refines.call (.worker app.signalContext) .handled
        (app.workers.set app.signalContext .inHandler)
      exact ⟨[.callStop], next, by simp [Transition.run_cons, moved], kept⟩
  | signals | leaves | exits => exact ⟨[], whole, rfl, { refines with }⟩

/-- Every run of the threads is a run of the application whose pool stops at once. -/
theorem run_refines {servers : List ServerId} {ioThreads signalContext : Nat}
    {actions : List Action} {app : AppThreads}
    (reached : Transition.run step (begin servers ioThreads signalContext) actions = some app) :
    ∃ steps whole, Transition.run App.step
        (App.begin servers (List.replicate ioThreads {}) false false) steps = some whole ∧
      Refines app whole :=
  Transition.simulation step App.step Refines (fun _ _ => True)
    (fun _ _ _ _ refines _ taken => refines.step taken)
    (begin_refines servers ioThreads signalContext) (.of_forall step (fun _ _ => trivial) _ _)
    reached

end AppThreads

end Chmicro
