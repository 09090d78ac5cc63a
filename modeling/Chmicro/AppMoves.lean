import Chmicro.App

set_option autoImplicit false

namespace Chmicro

/-- `Run` has cleared `stopped_`. -/
def RunPc.Cleared : RunPc → Prop
  | .registerApp | .resetStopped => False
  | _ => True

instance : DecidablePred RunPc.Cleared := fun pc => by
  cases pc <;> unfold RunPc.Cleared <;> infer_instance

/-- `Run` has started the pool. -/
def RunPc.PoolStarted : RunPc → Prop
  | .startServer _ | .wait | .returned => True
  | _ => False

instance : DecidablePred RunPc.PoolStarted := fun pc => by
  cases pc <;> unfold RunPc.PoolStarted <;> infer_instance

/-- How many of the servers `Run` has started. -/
def RunPc.begun (count : Nat) : RunPc → Nat
  | .startServer index => index
  | .wait | .returned => count
  | _ => 0

/-- How many of the servers a call of `Stop` under way has stopped. -/
def StopPc.passed (count : Nat) : StopPc → Nat
  | .stopServer index => index
  | .stopPool | .setStopped => count
  | .exchange | .finished | .refused => 0

namespace App

/-- Every way an application moves. -/
inductive Moves (app : App) : Action → App → Prop where
  | registers (at_ : app.run = .registerApp) :
      Moves app .run { app with registered := true, run := .resetStopped }
  | clears (at_ : app.run = .resetStopped) :
      Moves app .run { app with stopped := false, run := .resetRequested }
  | forgets (at_ : app.run = .resetRequested) :
      Moves app .run { app with stopRequested := false, run := .awaitSignals }
  | listens (at_ : app.run = .awaitSignals) : Moves app .run { app with run := .startPool }
  | startsPool (at_ : app.run = .startPool) :
      Moves app .run { app with pool := app.pool.start, run := .startServer 0 }
  | starts (index : Nat) (server : ServerId) (at_ : app.run = .startServer index)
      (listed : app.servers[index]? = some server) :
      Moves app .run { app.setUp server true with run := .startServer (index + 1) }
  | waits (index : Nat) (at_ : app.run = .startServer index) (all : app.servers.length ≤ index) :
      Moves app .run { app with run := .wait }
  | returns (at_ : app.run = .wait) (stopped : app.stopped = true) :
      Moves app .run { app with registered := false, run := .returned }
  | calls : Moves app .callStop { app with stops := app.stops ++ [.exchange] }
  | refuses (call : Nat) (at_ : app.stops[call]? = some .exchange)
      (requested : app.stopRequested = true) :
      Moves app (.stop call) { app with stops := app.stops.set call .refused }
  | wins (call : Nat) (at_ : app.stops[call]? = some .exchange)
      (first : app.stopRequested ≠ true) :
      Moves app (.stop call) { app with
        stopRequested := true
        registered := false
        stops := app.stops.set call (.stopServer 0) }
  | stops (call index : Nat) (server : ServerId)
      (at_ : app.stops[call]? = some (.stopServer index))
      (listed : app.servers[index]? = some server) :
      Moves app (.stop call)
        { app.setUp server false with stops := app.stops.set call (.stopServer (index + 1)) }
  | stopped (call index : Nat) (at_ : app.stops[call]? = some (.stopServer index))
      (all : app.servers.length ≤ index) :
      Moves app (.stop call) { app with stops := app.stops.set call .stopPool }
  | stopsPool (call : Nat) (at_ : app.stops[call]? = some .stopPool) :
      Moves app (.stop call) { app with
        pool := app.pool.stop
        stops := app.stops.set call .setStopped }
  | finishes (call : Nat) (at_ : app.stops[call]? = some .setStopped) :
      Moves app (.stop call) { app with
        stopped := true
        stops := app.stops.set call .finished }

theorem stepRun_moves {app after : App} (taken : app.stepRun = some after) :
    Moves app .run after := by
  cases pc : app.run with
  | registerApp => simp only [stepRun, pc, Option.some.injEq] at taken; exact taken ▸ .registers pc
  | resetStopped => simp only [stepRun, pc, Option.some.injEq] at taken; exact taken ▸ .clears pc
  | resetRequested => simp only [stepRun, pc, Option.some.injEq] at taken; exact taken ▸ .forgets pc
  | awaitSignals => simp only [stepRun, pc, Option.some.injEq] at taken; exact taken ▸ .listens pc
  | startPool => simp only [stepRun, pc, Option.some.injEq] at taken; exact taken ▸ .startsPool pc
  | startServer index =>
      simp only [stepRun, pc] at taken
      split at taken
      · rename_i server listed
        exact Option.some.inj taken ▸ .starts index server pc listed
      · rename_i none_left
        exact Option.some.inj taken ▸ .waits index pc (List.getElem?_eq_none_iff.mp none_left)
  | wait =>
      simp only [stepRun, pc] at taken
      split at taken
      · rename_i stopped
        exact Option.some.inj taken ▸ .returns pc stopped
      · cases taken
  | returned => simp [stepRun, pc] at taken

theorem stepStop_moves {app after : App} {call : Nat} {pc next : StopPc}
    (at_ : app.stops[call]? = some pc) (taken : app.stepStop pc = some (after, next)) :
    Moves app (.stop call) { after with stops := app.stops.set call next } := by
  cases pc with
  | exchange =>
      simp only [stepStop] at taken
      split at taken
      · rename_i requested
        cases taken
        exact .refuses call at_ requested
      · rename_i first
        cases taken
        exact .wins call at_ first
  | stopServer index =>
      simp only [stepStop] at taken
      split at taken
      · rename_i server listed
        cases taken
        exact .stops call index server at_ listed
      · rename_i none_left
        cases taken
        exact .stopped call index at_ (List.getElem?_eq_none_iff.mp none_left)
  | stopPool =>
      cases taken
      exact .stopsPool call at_
  | setStopped =>
      cases taken
      exact .finishes call at_
  | finished => cases taken
  | refused => cases taken

theorem step_moves {app after : App} {action : Action} (taken : app.step action = some after) :
    Moves app action after := by
  cases action with
  | run => exact stepRun_moves taken
  | callStop =>
      cases taken
      exact .calls
  | stop call =>
      obtain ⟨pc, at_, moved⟩ := Option.bind_eq_some_iff.mp taken
      obtain ⟨⟨middle, next⟩, stepped, rfl⟩ := Option.map_eq_some_iff.mp moved
      exact stepStop_moves at_ stepped

/-- `Run` up to its wait, with one server. -/
def runToWait : List Action := [.run, .run, .run, .run, .run, .run, .run]

/-- A whole call of `Stop`, with one server. -/
def wholeStop (call : Nat) : List Action :=
  [.callStop, .stop call, .stop call, .stop call, .stop call, .stop call]

end App

end Chmicro
