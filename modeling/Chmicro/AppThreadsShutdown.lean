import Chmicro.AppThreadsSound

set_option autoImplicit false

namespace Chmicro

/-- The call has won the exchange of `stop_requested_`. -/
def ShutdownPc.won : ShutdownPc → Bool
  | .exchange | .refused => false
  | _ => true

/-- A bound on the steps that are left of the call. -/
def ShutdownPc.left (servers contexts : Nat) : ShutdownPc → Nat
  | .exchange => 8 + 3 * contexts + servers
  | .stopServer index => 7 + 3 * contexts + (servers - index)
  | .claimPool => 6 + 3 * contexts
  | .resetGuard index => 5 + 2 * contexts + (contexts - index)
  | .stopContext index => 4 + contexts + (contexts - index)
  | .join index => 3 + (contexts - index)
  | .clearWorkers => 2
  | .setStopped => 1
  | .finished => 0
  | .refused => 0

/-- A bound on the steps until the worker has left `run()`. -/
def WorkerPc.left : WorkerPc → Nat
  | .inHandler => 2
  | .running => 1
  | .exited => 0

namespace AppThreads

/-- The steps of the calls of `Stop` and of the workers that leave. -/
def Action.shuts : Action → Bool
  | .stop _ | .leaveHandler | .exit _ => true
  | _ => false

/-- No call of `Stop` and no worker can take a step. -/
def Settled (app : AppThreads) : Prop :=
  ∀ action, action.shuts = true → app.step action = none

/-- A bound on the steps of the calls of `Stop` and of the workers. -/
def rank (app : AppThreads) : Nat :=
  (app.stops.map fun stop => stop.pc.left app.servers.length app.contexts.length).sum +
    (app.workers.map WorkerPc.left).sum

theorem StopMoves.left {app after : AppThreads} {pc next : ShutdownPc}
    (fit : app.workers.length ≤ app.contexts.length) (moves : StopMoves app pc after next) :
    next.left app.servers.length app.contexts.length <
      pc.left app.servers.length app.contexts.length := by
  cases moves <;> simp only [ShutdownPc.left] <;> omega

theorem rank_lt {app after : AppThreads} {action : Action} (sound : Sound app)
    (shuts : action.shuts = true) (taken : app.step action = some after) :
    after.rank < app.rank := by
  cases step_moves taken with
  | runs | calls | signals | dispatches => cases shuts
  | @stops call stop middle next at_ moves =>
      obtain ⟨servers, -, -, workers, contexts⟩ := moves.frame
      have less := moves.left sound.fit
      have calls := ListSet.sum_map_set_add
        (fun stop => stop.pc.left app.servers.length app.contexts.length) at_
        { stop with pc := next }
      have leaving : (middle.workers.map WorkerPc.left).sum ≤
          (app.workers.map WorkerPc.left).sum := by
        rcases workers with same | cleared
        · exact Nat.le_of_eq (by rw [same])
        · rw [cleared]
          exact Nat.zero_le _
      simp only [rank, servers, contexts.1] at calls ⊢
      omega
  | leaves handling =>
      have workers := ListSet.sum_map_set_add WorkerPc.left handling .running
      simp only [rank, WorkerPc.left] at workers ⊢
      omega
  | exits worker running =>
      have workers := ListSet.sum_map_set_add WorkerPc.left running .exited
      simp only [rank, WorkerPc.left] at workers ⊢
      omega

/-- When nothing can move, no call of `Stop` is left waiting for a worker. -/
theorem Sound.settled_returned {app : AppThreads} (sound : Sound app) (settled : app.Settled) :
    ∀ stop ∈ app.stops, stop.pc.returned = true := by
  have waiting : ∀ stop ∈ app.stops, stop.pc.returned = true ∨ ∃ index worker,
      stop.pc = .join index ∧ app.workers[index]? = some worker ∧ worker ≠ .exited := by
    intro stop member
    obtain ⟨call, at_⟩ := List.mem_iff_getElem?.mp member
    have stuck := settled (.stop call) rfl
    simp only [AppThreads.step, at_, Option.bind_some, Option.map_eq_none_iff] at stuck
    exact stepStop_eq_none stuck
  intro stop member
  rcases waiting stop member with returned | ⟨index, worker, joining, staying, present⟩
  · exact returned
  exfalso
  cases worker with
  | exited => exact present rfl
  | running =>
      -- Its context is stopped, so the worker can leave.
      obtain ⟨inside, -⟩ := List.getElem?_eq_some_iff.mp staying
      have listed := List.getElem?_eq_getElem (Nat.lt_of_lt_of_le inside sound.fit)
      have stopped := (sound.calls stop member).contexts index _
        (by rw [joining]; exact Nat.lt_of_lt_of_le inside sound.fit) listed
      have stuck := settled (.exit index) rfl
      simp [AppThreads.step, staying, listed, letsGo, stopped] at stuck
  | inHandler =>
      -- The handler's own call never joins, so it has returned and the handler can too.
      obtain ⟨rfl, handling, listed, thread⟩ := sound.handling index staying
      have returned : handling.pc.returned = true := by
        rcases waiting handling listed with returned | ⟨_, _, inside, -, -⟩
        · exact returned
        · have other := (sound.calls handling listed).outside (by rw [inside]; rfl)
          rw [thread] at other
          cases other
      have stuck := settled .leaveHandler rfl
      simp only [AppThreads.step, ite_eq_right_iff] at stuck
      cases stuck ⟨staying, List.any_eq_true.mpr ⟨handling, listed, by simp [thread, returned]⟩⟩

theorem StopMoves.won {app after : AppThreads} {pc next : ShutdownPc}
    (moves : StopMoves app pc after next) (before : pc.won = true) : next.won = true := by
  cases moves with
  | refuses => cases before
  | _ => rfl

/-- The call at a position keeps its thread and stays past the exchange. -/
def Winning (call : Nat) (thread : Thread) (app : AppThreads) : Prop :=
  ∃ pc, app.stops[call]? = some ⟨thread, pc⟩ ∧ pc.won = true

theorem getElem?_append_of_some {calls more : List StopCall} {call : Nat} {stop : StopCall}
    (at_ : calls[call]? = some stop) : (calls ++ more)[call]? = some stop := by
  rwa [List.getElem?_append_left (List.getElem?_eq_some_iff.mp at_).1]

theorem Winning.step {call : Nat} {thread : Thread} {app after : AppThreads} {action : Action}
    (winning : Winning call thread app) (taken : app.step action = some after) :
    Winning call thread after := by
  obtain ⟨pc, at_, won⟩ := winning
  cases step_moves taken with
  | runs ran =>
      obtain ⟨-, stops, -, -⟩ := stepRun_frame ran
      exact ⟨pc, stops ▸ at_, won⟩
  | calls => exact ⟨pc, getElem?_append_of_some at_, won⟩
  | @stops moving stop middle next standing moves =>
      by_cases here : moving = call
      · subst here
        obtain rfl : stop = ⟨thread, pc⟩ := Option.some.inj (standing.symm.trans at_)
        exact ⟨next, List.getElem?_set_self (List.getElem?_eq_some_iff.mp at_).1, moves.won won⟩
      · exact ⟨pc, (List.getElem?_set_ne here).trans at_, won⟩
  | dispatches running => exact ⟨pc, getElem?_append_of_some at_, won⟩
  | signals | leaves | exits => exact ⟨pc, at_, won⟩

/-- In a run in which no worker claims the pool, no call of `Stop` joins its own thread. The
calls and the workers then come to rest, and each call that has won the exchange has set
`stopped_`. -/
theorem stop_reaches_set (servers : List ServerId) (ioThreads signalContext : Nat)
    (actions : List Action) (app : AppThreads)
    (reached : Transition.run step (begin servers ioThreads signalContext) actions = some app)
    (outside : Transition.Meets step ClaimedOutside
      (begin servers ioThreads signalContext) actions) :
    (∀ stop ∈ app.stops, ∀ index, stop.pc = .join index →
      ∀ worker < app.workers.length, stop.thread ≠ .worker worker) ∧
    ∀ rest final, (∀ action ∈ rest, action.shuts = true) →
      Transition.Meets step ClaimedOutside app rest →
      Transition.run step app rest = some final →
      rest.length ≤ app.rank ∧
        (final.Settled → ∀ (call : Nat) (stop : StopCall), app.stops[call]? = some stop →
          stop.pc.won = true → final.stops[call]? = some { stop with pc := .finished }) := by
  have kept : ∀ state action next, Sound state → ClaimedOutside state action →
      step state action = some next → Sound next :=
    fun _ _ _ sound allowed taken => sound.step allowed taken
  have sound : Sound app := Transition.invariant step ClaimedOutside Sound kept
    (begin_sound servers ioThreads signalContext) outside reached
  refine ⟨fun stop member index joining worker _ same => ?_,
    fun rest final shuts allowed finishes => ⟨?_, fun settled call stop at_ won => ?_⟩⟩
  · have other := (sound.calls stop member).outside (by rw [joining]; rfl)
    rw [same] at other
    cases other
  · refine Transition.length_le_rank step
      (fun state action => ClaimedOutside state action ∧ action.shuts = true) Sound rank
      (fun state action next sound allowed taken => kept state action next sound allowed.1 taken)
      (fun _ _ _ sound allowed taken => rank_lt sound allowed.2 taken) sound ?_ finishes
    exact allowed.and step (.of_mem step shuts app)
  · have ending : Sound final :=
      Transition.invariant step ClaimedOutside Sound kept sound allowed finishes
    obtain ⟨pc, standing, winning⟩ := Transition.invariant_always step (Winning call stop.thread)
      (fun _ _ _ winning taken => winning.step taken) ⟨stop.pc, at_, won⟩ finishes
    have returned := ending.settled_returned settled _ (List.mem_of_getElem? standing)
    have finished : pc = .finished := by
      cases pc <;> simp_all [ShutdownPc.returned, ShutdownPc.won]
    rw [standing, finished]

/-- `Run` with one thread and no server reaches its wait. -/
def runToWait : List Action := List.replicate 6 .run

/-- A call from outside stops the one context, waits for its worker and finishes. -/
def outsideStop : List Action :=
  List.replicate 6 (.stop 0) ++ [.exit 0] ++ List.replicate 4 (.stop 0)

/-- `Run` waits, and a call from outside has won the exchange. -/
def stopping : AppThreads where
  servers := []
  signalContext := 0
  contexts := [{}]
  workers := [.running]
  started := true
  signal := .waiting
  stopRequested := true
  run := .wait
  stops := [⟨.other, .stopServer 0⟩]

theorem stop_reaches_set_from_outside :
    ∃ final, Transition.run step (begin [] 1 0) (runToWait ++ [.callStop, .stop 0]) = some stopping ∧
      Transition.run step stopping outsideStop = some final ∧
      outsideStop.length ≤ stopping.rank ∧
      (final.Settled → final.stops[0]? = some ⟨.other, .finished⟩) := by
  obtain ⟨-, ends⟩ :=
    stop_reaches_set [] 1 0 (runToWait ++ [.callStop, .stop 0]) stopping rfl (by decide)
  obtain ⟨final, finishes⟩ :=
    Option.isSome_iff_exists.mp (rfl : (Transition.run step stopping outsideStop).isSome = true)
  obtain ⟨bounded, set⟩ := ends outsideStop final (by decide) (by decide) finishes
  exact ⟨final, rfl, finishes, bounded, fun settled => set settled 0 ⟨.other, .stopServer 0⟩ rfl rfl⟩

/-- The handler of a signal claims the pool on its own worker and joins that worker, which throws
and ends the process: no thread moves any more, and `stopped_` is not set. -/
theorem signal_joins_own_worker :
    ∃ app, Transition.run step (begin [] 1 0)
        (runToWait ++ [.signal, .dispatch] ++ List.replicate 7 (.stop 0)) = some app ∧
      app.stops = [⟨.worker 0, .join 0⟩] ∧ app.workers = [.inHandler] ∧ app.stopped = false ∧
      ∀ action, action ≠ .callStop → app.step action = none := by
  refine ⟨_, rfl, rfl, rfl, rfl, fun action other => ?_⟩
  cases action with
  | callStop => exact (other rfl).elim
  | stop call => cases call <;> rfl
  | exit worker => cases worker <;> rfl
  | run | signal | dispatch | leaveHandler => rfl

end AppThreads

end Chmicro
