import Chmicro.IoContextPool
import Chmicro.Transition

set_option autoImplicit false

namespace Chmicro

/-- The step `App::Run` takes next. -/
inductive RunPc where
  | registerApp
  | resetStopped
  | resetRequested
  | awaitSignals
  | startPool
  | startServer (index : Nat)
  | wait
  | returned
  deriving DecidableEq, Repr

/-- The step a call of `App::Stop` takes next. A call that finds `stop_requested_` set is
refused and returns. -/
inductive StopPc where
  | exchange
  | stopServer (index : Nat)
  | stopPool
  | setStopped
  | finished
  | refused
  deriving DecidableEq, Repr

abbrev ServerId := Nat

/-- The application with the threads that are inside `Run` and `Stop`. A server is up when
the last call made on it was `Start`. One server may be listed more than once. -/
structure App where
  servers : List ServerId
  up : ServerId → Bool
  pool : IoContextPool
  stopRequested : Bool
  stopped : Bool
  registered : Bool
  run : RunPc
  stops : List StopPc

namespace App

/-- `Run` has been called and nothing has happened yet. The flags are as an earlier run may
have left them, and so are the contexts of the pool. -/
def begin (servers : List ServerId) (contexts : List IoContext) (stopped stopRequested : Bool) :
    App where
  servers := servers
  up := fun _ => false
  pool := { contexts }
  stopRequested := stopRequested
  stopped := stopped
  registered := false
  run := .registerApp
  stops := []

def setUp (app : App) (server : ServerId) (value : Bool) : App :=
  { app with up := fun other => if other = server then value else app.up other }

/-- One step of the thread inside `Run`. The wait is over once `stopped_` is true. -/
def stepRun (app : App) : Option App :=
  match app.run with
  | .registerApp => some { app with registered := true, run := .resetStopped }
  | .resetStopped => some { app with stopped := false, run := .resetRequested }
  | .resetRequested => some { app with stopRequested := false, run := .awaitSignals }
  | .awaitSignals => some { app with run := .startPool }
  | .startPool => some { app with pool := app.pool.start, run := .startServer 0 }
  | .startServer index =>
      match app.servers[index]? with
      | some server => some { app.setUp server true with run := .startServer (index + 1) }
      | none => some { app with run := .wait }
  | .wait => if app.stopped then some { app with registered := false, run := .returned } else none
  | .returned => none

/-- One step of a call of `Stop`, and what the call does next. -/
def stepStop (app : App) : StopPc → Option (App × StopPc)
  | .exchange =>
      if app.stopRequested then
        some (app, .refused)
      else
        some ({ app with stopRequested := true, registered := false }, .stopServer 0)
  | .stopServer index =>
      match app.servers[index]? with
      | some server => some (app.setUp server false, .stopServer (index + 1))
      | none => some (app, .stopPool)
  | .stopPool => some ({ app with pool := app.pool.stop }, .setStopped)
  | .setStopped => some ({ app with stopped := true }, .finished)
  | .finished => none
  | .refused => none

inductive Action where
  | run
  | callStop
  | stop (call : Nat)
  deriving DecidableEq, Repr

def step (app : App) : Action → Option App
  | .run => app.stepRun
  | .callStop => some { app with stops := app.stops ++ [.exchange] }
  | .stop call =>
      (app.stops[call]?).bind fun pc =>
        (app.stepStop pc).map fun (after, next) =>
          { after with stops := app.stops.set call next }

end App

end Chmicro
