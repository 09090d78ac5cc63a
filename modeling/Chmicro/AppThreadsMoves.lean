import Chmicro.AppThreads

set_option autoImplicit false

namespace Chmicro.AppThreads

/-- Every way a call of `Stop` moves, with what becomes of the application. -/
inductive StopMoves (app : AppThreads) : ShutdownPc → AppThreads → ShutdownPc → Prop where
  | refuses (requested : app.stopRequested = true) : StopMoves app .exchange app .refused
  | wins (first : app.stopRequested ≠ true) :
      StopMoves app .exchange { app with stopRequested := true } (.stopServer 0)
  | stops (index : Nat) (inside : index < app.servers.length) :
      StopMoves app (.stopServer index) app (.stopServer (index + 1))
  | stopped (index : Nat) (all : app.servers.length ≤ index) :
      StopMoves app (.stopServer index) app .claimPool
  | claims (started : app.started = true) :
      StopMoves app .claimPool { app with started := false } (.resetGuard 0)
  | skips (idle : app.started ≠ true) : StopMoves app .claimPool app .setStopped
  | releases (index : Nat) (inside : index < app.contexts.length) :
      StopMoves app (.resetGuard index)
        (app.setContext index fun context => { context with guarded := false })
        (.resetGuard (index + 1))
  | released (index : Nat) : StopMoves app (.resetGuard index) app (.stopContext 0)
  | halts (index : Nat) (inside : index < app.contexts.length) :
      StopMoves app (.stopContext index)
        (app.setContext index fun context => { context with stopped := true })
        (.stopContext (index + 1))
  | halted (index : Nat) (all : app.contexts.length ≤ index) :
      StopMoves app (.stopContext index) app (.join 0)
  | joins (index : Nat) (inside : index < app.workers.length) :
      StopMoves app (.join index) app (.join (index + 1))
  | joined (index : Nat) : StopMoves app (.join index) app .clearWorkers
  | clears : StopMoves app .clearWorkers { app with workers := [] } .setStopped
  | sets : StopMoves app .setStopped { app with stopped := true } .finished

theorem stepStop_moves {app after : AppThreads} {pc next : ShutdownPc}
    (taken : app.stepStop pc = some (after, next)) : StopMoves app pc after next := by
  cases pc with
  | exchange =>
      simp only [stepStop] at taken
      split at taken
      · rename_i requested
        cases taken
        exact .refuses requested
      · rename_i first
        cases taken
        exact .wins first
  | stopServer index =>
      simp only [stepStop] at taken
      split at taken
      · rename_i server listed
        cases taken
        exact .stops index (List.getElem?_eq_some_iff.mp listed).1
      · rename_i none_left
        cases taken
        exact .stopped index (List.getElem?_eq_none_iff.mp none_left)
  | claimPool =>
      simp only [stepStop] at taken
      split at taken
      · rename_i started
        cases taken
        exact .claims started
      · rename_i idle
        cases taken
        exact .skips idle
  | resetGuard index =>
      simp only [stepStop] at taken
      split at taken
      · rename_i inside
        cases taken
        exact .releases index inside
      · cases taken
        exact .released index
  | stopContext index =>
      simp only [stepStop] at taken
      split at taken
      · rename_i inside
        cases taken
        exact .halts index inside
      · rename_i all
        cases taken
        exact .halted index (Nat.le_of_not_lt all)
  | join index =>
      simp only [stepStop] at taken
      split at taken
      · rename_i left
        cases taken
        exact .joins index (List.getElem?_eq_some_iff.mp left).1
      · cases taken
      · cases taken
        exact .joined index
  | clearWorkers =>
      cases taken
      exact .clears
  | setStopped =>
      cases taken
      exact .sets
  | finished | refused => cases taken

/-- Every way the application moves. -/
inductive Moves (app : AppThreads) : Action → AppThreads → Prop where
  | runs {after : AppThreads} (ran : app.stepRun = some after) : Moves app .run after
  | calls : Moves app .callStop { app with stops := app.stops ++ [⟨.other, .exchange⟩] }
  | stops (call : Nat) {stop : StopCall} {after : AppThreads} {next : ShutdownPc}
      (at_ : app.stops[call]? = some stop) (moves : StopMoves app stop.pc after next) :
      Moves app (.stop call)
        { after with stops := app.stops.set call { stop with pc := next } }
  | signals (waiting : app.signal = .waiting) :
      Moves app .signal { app with signal := .delivered }
  | dispatches (running : app.workers[app.signalContext]? = some .running) :
      Moves app .dispatch { app with
        signal := .handled
        workers := app.workers.set app.signalContext .inHandler
        stops := app.stops ++ [⟨.worker app.signalContext, .exchange⟩] }
  | leaves (handling : app.workers[app.signalContext]? = some .inHandler) :
      Moves app .leaveHandler
        { app with workers := app.workers.set app.signalContext .running }
  | exits (worker : Nat) (running : app.workers[worker]? = some .running) :
      Moves app (.exit worker) { app with workers := app.workers.set worker .exited }

theorem step_moves {app after : AppThreads} {action : Action}
    (taken : app.step action = some after) : Moves app action after := by
  cases action with
  | run => exact .runs taken
  | callStop =>
      cases taken
      exact .calls
  | stop call =>
      obtain ⟨stop, at_, moved⟩ := Option.bind_eq_some_iff.mp taken
      obtain ⟨⟨middle, next⟩, stepped, rfl⟩ := Option.map_eq_some_iff.mp moved
      exact .stops call at_ (stepStop_moves stepped)
  | signal =>
      simp only [step] at taken
      split at taken
      · rename_i waiting
        cases taken
        exact .signals waiting
      · cases taken
  | dispatch =>
      simp only [step] at taken
      split at taken
      · rename_i running _
        split at taken
        · cases taken
          exact .dispatches running
        · cases taken
      · cases taken
  | leaveHandler =>
      simp only [step] at taken
      split at taken
      · rename_i handling
        cases taken
        exact .leaves handling.1
      · cases taken
  | exit worker =>
      simp only [step] at taken
      split at taken
      · rename_i running _
        split at taken
        · cases taken
          exact .exits worker running
        · cases taken
      · cases taken

/-- A call that cannot move has returned, or it joins a worker that has not left. -/
theorem stepStop_eq_none {app : AppThreads} {pc : ShutdownPc} (stuck : app.stepStop pc = none) :
    pc.returned = true ∨ ∃ index worker, pc = .join index ∧ app.workers[index]? = some worker ∧
      worker ≠ .exited := by
  cases pc with
  | exchange | stopServer | claimPool | resetGuard | stopContext =>
      simp only [stepStop] at stuck
      split at stuck <;> cases stuck
  | join index =>
      simp only [stepStop] at stuck
      split at stuck
      · cases stuck
      · rename_i worker staying listed
        exact .inr ⟨index, worker, rfl, listed, staying⟩
      · cases stuck
  | clearWorkers | setStopped => cases stuck
  | finished | refused => exact .inl rfl

end Chmicro.AppThreads
