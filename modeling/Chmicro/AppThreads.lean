import Chmicro.App

set_option autoImplicit false

namespace Chmicro

/-- Who runs a call of `App::Stop`: a thread outside the pool, or the worker that runs the
signal handler. -/
inductive Thread where
  | other
  | worker (index : Nat)
  deriving DecidableEq, Repr

/-- The step a call of `App::Stop` takes next, with the loops of `IoContextPool::Stop`. -/
inductive ShutdownPc where
  | exchange
  | stopServer (index : Nat)
  | claimPool
  | resetGuard (index : Nat)
  | stopContext (index : Nat)
  | join (index : Nat)
  | clearWorkers
  | setStopped
  | finished
  | refused
  deriving DecidableEq, Repr

/-- The call has returned. -/
def ShutdownPc.returned : ShutdownPc → Bool
  | .finished | .refused => true
  | _ => false

structure StopCall where
  thread : Thread
  pc : ShutdownPc
  deriving DecidableEq, Repr

/-- A thread of the pool is in `run()`, in the signal handler that `run()` has called, or
has left `run()`. -/
inductive WorkerPc where
  | running
  | inHandler
  | exited
  deriving DecidableEq, Repr

/-- The wait of the `signal_set`. Its handler is called once. -/
inductive SignalWait where
  | notSet
  | waiting
  | delivered
  | handled
  deriving DecidableEq, Repr

/-- The application as its threads see it. Worker `i` runs context `i`. What the servers do
when they are stopped plays no part. -/
structure AppThreads where
  servers : List ServerId
  signalContext : Nat
  contexts : List IoContext
  workers : List WorkerPc := []
  started : Bool := false
  signal : SignalWait := .notSet
  stopRequested : Bool := false
  stopped : Bool := false
  run : RunPc := .registerApp
  stops : List StopCall := []
  deriving DecidableEq

namespace AppThreads

/-- `Run` has been called on a new application, with the signals bound to one context. -/
def begin (servers : List ServerId) (ioThreads signalContext : Nat) : AppThreads where
  servers := servers
  signalContext := signalContext
  contexts := List.replicate ioThreads {}

/-- A worker whose context was stopped leaves `run()` at once. -/
def spawn (context : IoContext) : WorkerPc :=
  if context.stopped then .exited else .running

def startPool (app : AppThreads) : AppThreads :=
  if app.started then app
  else { app with started := true, workers := app.workers ++ app.contexts.map spawn }

def stepRun (app : AppThreads) : Option AppThreads :=
  match app.run with
  | .registerApp => some { app with run := .resetStopped }
  | .resetStopped => some { app with stopped := false, run := .resetRequested }
  | .resetRequested => some { app with stopRequested := false, run := .awaitSignals }
  | .awaitSignals => some { app with signal := .waiting, run := .startPool }
  | .startPool => some { app.startPool with run := .startServer 0 }
  | .startServer index =>
      match app.servers[index]? with
      | some _ => some { app with run := .startServer (index + 1) }
      | none => some { app with run := .wait }
  | .wait => if app.stopped then some { app with run := .returned } else none
  | .returned => none

def setContext (app : AppThreads) (index : Nat) (change : IoContext → IoContext) : AppThreads :=
  { app with contexts := app.contexts.modify index change }

/-- One step of a call of `Stop`, and what the call does next. A join returns when its
worker has left `run()`. Of a call that joins its own thread nothing follows: the join throws
and the process ends. -/
def stepStop (app : AppThreads) : ShutdownPc → Option (AppThreads × ShutdownPc)
  | .exchange =>
      if app.stopRequested then some (app, .refused)
      else some ({ app with stopRequested := true }, .stopServer 0)
  | .stopServer index =>
      match app.servers[index]? with
      | some _ => some (app, .stopServer (index + 1))
      | none => some (app, .claimPool)
  | .claimPool =>
      if app.started then some ({ app with started := false }, .resetGuard 0)
      else some (app, .setStopped)
  | .resetGuard index =>
      if index < app.contexts.length then
        some (app.setContext index fun context => { context with guarded := false },
          .resetGuard (index + 1))
      else some (app, .stopContext 0)
  | .stopContext index =>
      if index < app.contexts.length then
        some (app.setContext index fun context => { context with stopped := true },
          .stopContext (index + 1))
      else some (app, .join 0)
  | .join index =>
      match app.workers[index]? with
      | some .exited => some (app, .join (index + 1))
      | some _ => none
      | none => some (app, .clearWorkers)
  | .clearWorkers => some ({ app with workers := [] }, .setStopped)
  | .setStopped => some ({ app with stopped := true }, .finished)
  | .finished => none
  | .refused => none

/-- The signal's wait is work of its context until the handler is called. -/
def hasWork (app : AppThreads) (index : Nat) : Bool :=
  app.signalContext = index ∧ (app.signal = .waiting ∨ app.signal = .delivered)

/-- A context lets its worker go when it was stopped, and may do so when it is out of work. -/
def letsGo (app : AppThreads) (index : Nat) (context : IoContext) : Bool :=
  context.stopped || (!context.guarded && !app.hasWork index)

inductive Action where
  | run
  | callStop
  | stop (call : Nat)
  | signal
  | dispatch
  | leaveHandler
  | exit (worker : Nat)
  deriving DecidableEq, Repr

def step (app : AppThreads) : Action → Option AppThreads
  | .run => app.stepRun
  | .callStop => some { app with stops := app.stops ++ [⟨.other, .exchange⟩] }
  | .stop call =>
      (app.stops[call]?).bind fun stop =>
        (app.stepStop stop.pc).map fun (after, next) =>
          { after with stops := app.stops.set call { stop with pc := next } }
  | .signal => if app.signal = .waiting then some { app with signal := .delivered } else none
  | .dispatch =>
      match app.workers[app.signalContext]?, app.contexts[app.signalContext]? with
      | some .running, some context =>
          if app.signal = .delivered ∧ ¬ context.stopped then
            some { app with
              signal := .handled
              workers := app.workers.set app.signalContext .inHandler
              stops := app.stops ++ [⟨.worker app.signalContext, .exchange⟩] }
          else none
      | _, _ => none
  | .leaveHandler =>
      if app.workers[app.signalContext]? = some .inHandler ∧
          app.stops.any fun stop =>
            stop.thread = .worker app.signalContext ∧ stop.pc.returned then
        some { app with workers := app.workers.set app.signalContext .running }
      else none
  | .exit worker =>
      match app.workers[worker]?, app.contexts[worker]? with
      | some .running, some context =>
          if app.letsGo worker context then
            some { app with workers := app.workers.set worker .exited }
          else none
      | _, _ => none

end AppThreads

end Chmicro
