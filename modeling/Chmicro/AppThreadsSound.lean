import Chmicro.AppMoves
import Chmicro.AppThreadsMoves
import Chmicro.ListSet

set_option autoImplicit false

namespace Chmicro

/-- The call is inside `IoContextPool::Stop`, past the exchange of `started_`. -/
def ShutdownPc.inPool : ShutdownPc → Bool
  | .resetGuard _ | .stopContext _ | .join _ | .clearWorkers => true
  | _ => false

/-- How many of the contexts the call has stopped. -/
def ShutdownPc.halted (contexts : Nat) : ShutdownPc → Nat
  | .stopContext index => index
  | .join _ | .clearWorkers => contexts
  | _ => 0

namespace AppThreads

/-- The pool is never claimed by a call of `Stop` that runs on a worker. -/
def ClaimedOutside (app : AppThreads) : Action → Prop
  | .stop call => ∀ stop ∈ app.stops[call]?, stop.pc = .claimPool → app.started = true →
      stop.thread = .other
  | _ => True

instance (app : AppThreads) : (action : Action) → Decidable (ClaimedOutside app action)
  | .run | .callStop | .signal | .dispatch | .leaveHandler | .exit _ => isTrue trivial
  | .stop call => inferInstanceAs (Decidable (∀ stop ∈ app.stops[call]?, stop.pc = .claimPool →
      app.started = true → stop.thread = .other))

/-- What holds of a call: it runs outside the pool when it is inside `IoContextPool::Stop`,
and the contexts it has passed are stopped. -/
structure CallSound (app : AppThreads) (stop : StopCall) : Prop where
  outside : stop.pc.inPool = true → stop.thread = .other
  contexts : ∀ index context, index < stop.pc.halted app.contexts.length →
    app.contexts[index]? = some context → context.stopped = true

structure Sound (app : AppThreads) : Prop where
  fit : app.workers.length ≤ app.contexts.length
  unstarted : ¬ app.run.PoolStarted → app.workers = []
  handling : ∀ index, app.workers[index]? = some .inHandler → index = app.signalContext ∧
    ∃ stop ∈ app.stops, stop.thread = .worker app.signalContext
  calls : ∀ stop ∈ app.stops, CallSound app stop

theorem begin_sound (servers : List ServerId) (ioThreads signalContext : Nat) :
    Sound (begin servers ioThreads signalContext) :=
  ⟨Nat.zero_le _, fun _ => rfl, fun index impossible => by simp [begin] at impossible,
    fun _ impossible => by cases impossible⟩

theorem spawn_ne_inHandler (context : IoContext) : spawn context ≠ .inHandler := by
  unfold spawn
  split <;> simp

theorem startPool_frame (app : AppThreads) :
    app.startPool.contexts = app.contexts ∧ app.startPool.stops = app.stops ∧
      app.startPool.signalContext = app.signalContext ∧
      (app.startPool.workers = app.workers ∨
        app.startPool.workers = app.workers ++ app.contexts.map spawn) := by
  unfold startPool
  split
  · exact ⟨rfl, rfl, rfl, .inl rfl⟩
  · exact ⟨rfl, rfl, rfl, .inr rfl⟩

/-- `Run` changes the workers only where it starts the pool. -/
theorem stepRun_frame {app after : AppThreads} (taken : app.stepRun = some after) :
    after.contexts = app.contexts ∧ after.stops = app.stops ∧
      after.signalContext = app.signalContext ∧
      (after.workers = app.workers ∧ (app.run.PoolStarted → after.run.PoolStarted) ∨
        ¬ app.run.PoolStarted ∧ after.run.PoolStarted ∧
          after.workers = app.startPool.workers) := by
  cases pc : app.run with
  | registerApp | resetStopped | resetRequested | awaitSignals =>
      simp only [stepRun, pc, Option.some.injEq] at taken
      exact taken ▸ ⟨rfl, rfl, rfl, .inl ⟨rfl, False.elim⟩⟩
  | startPool =>
      simp only [stepRun, pc, Option.some.injEq] at taken
      obtain ⟨contexts, stops, signal, -⟩ := app.startPool_frame
      exact taken ▸ ⟨contexts, stops, signal, .inr ⟨id, trivial, rfl⟩⟩
  | startServer index =>
      simp only [stepRun, pc] at taken
      split at taken <;>
        exact Option.some.inj taken ▸ ⟨rfl, rfl, rfl, .inl ⟨rfl, fun _ => trivial⟩⟩
  | wait =>
      simp only [stepRun, pc] at taken
      split at taken
      · exact Option.some.inj taken ▸ ⟨rfl, rfl, rfl, .inl ⟨rfl, fun _ => trivial⟩⟩
      · cases taken
  | returned => simp [stepRun, pc] at taken

/-- The contexts are as many, and none that was stopped goes on. -/
def KeepsStopped (before after : List IoContext) : Prop :=
  after.length = before.length ∧ ∀ (index : Nat) (now : IoContext), after[index]? = some now →
    ∃ old, before[index]? = some old ∧ (old.stopped = true → now.stopped = true)

theorem KeepsStopped.refl (contexts : List IoContext) : KeepsStopped contexts contexts :=
  ⟨rfl, fun _ now found => ⟨now, found, id⟩⟩

theorem setContext_keepsStopped (app : AppThreads) (index : Nat)
    {change : IoContext → IoContext}
    (keeps : ∀ context, context.stopped = true → (change context).stopped = true) :
    KeepsStopped app.contexts (app.setContext index change).contexts := by
  refine ⟨List.length_modify .., fun other now found => ?_⟩
  simp only [setContext, List.getElem?_modify] at found
  obtain ⟨old, listed, rfl⟩ := Option.map_eq_some_iff.mp found
  refine ⟨old, listed, fun stopped => ?_⟩
  split
  · exact keeps old stopped
  · exact stopped

theorem StopMoves.frame {app after : AppThreads} {pc next : ShutdownPc}
    (moves : StopMoves app pc after next) :
    after.servers = app.servers ∧ after.run = app.run ∧
      after.signalContext = app.signalContext ∧
      (after.workers = app.workers ∨ after.workers = []) ∧
      KeepsStopped app.contexts after.contexts := by
  cases moves with
  | releases index inside =>
      exact ⟨rfl, rfl, rfl, .inl rfl, app.setContext_keepsStopped index fun _ => id⟩
  | halts index inside =>
      exact ⟨rfl, rfl, rfl, .inl rfl, app.setContext_keepsStopped index fun _ _ => rfl⟩
  | clears => exact ⟨rfl, rfl, rfl, .inr rfl, .refl _⟩
  | _ => exact ⟨rfl, rfl, rfl, .inl rfl, .refl _⟩

theorem CallSound.mono {app after : AppThreads} {stop : StopCall} (sound : CallSound app stop)
    (kept : KeepsStopped app.contexts after.contexts) : CallSound after stop := by
  refine ⟨sound.outside, fun index now inside found => ?_⟩
  obtain ⟨old, listed, stopped⟩ := kept.2 index now found
  exact stopped (sound.contexts index old (kept.1 ▸ inside) listed)

/-- A call outside the pool has passed no context. -/
theorem CallSound.of_not_inPool {app : AppThreads} {stop : StopCall}
    (away : stop.pc.inPool = false) : CallSound app stop := by
  refine ⟨fun inside => ?_, fun index context inside _ => ?_⟩
  · rw [away] at inside
    cases inside
  · cases pc : stop.pc with
    | stopContext _ | join _ | clearWorkers => simp [pc, ShutdownPc.inPool] at away
    | _ => simp [pc, ShutdownPc.halted] at inside

/-- The contexts a call has stopped stay stopped, and it only enters the pool from outside. -/
theorem CallSound.moves {app after : AppThreads} {stop : StopCall} {next : ShutdownPc}
    (sound : CallSound app stop)
    (outside : stop.pc = .claimPool → app.started = true → stop.thread = .other)
    (moves : StopMoves app stop.pc after next) : CallSound after { stop with pc := next } := by
  obtain ⟨thread, pc⟩ := stop
  have passed := sound.contexts
  cases moves with
  | claims started =>
      exact ⟨fun _ => outside rfl started, fun _ _ impossible => absurd impossible (Nat.not_lt_zero _)⟩
  | releases index inside =>
      have other := sound.outside rfl
      exact ⟨fun _ => other, fun _ _ impossible => absurd impossible (Nat.not_lt_zero _)⟩
  | released index =>
      have other := sound.outside rfl
      exact ⟨fun _ => other, fun _ _ impossible => absurd impossible (Nat.not_lt_zero _)⟩
  | halts index inside =>
      have other := sound.outside rfl
      refine ⟨fun _ => other, fun position now below found => ?_⟩
      simp only [setContext, List.getElem?_modify] at found
      obtain ⟨old, listed, rfl⟩ := Option.map_eq_some_iff.mp found
      split
      · rfl
      · rename_i elsewhere
        have earlier : position < index :=
          Nat.lt_of_le_of_ne (Nat.le_of_lt_succ below) (Ne.symm elsewhere)
        exact passed position old earlier listed
  | halted index all =>
      have other := sound.outside rfl
      refine ⟨fun _ => other, fun position context inside found => ?_⟩
      exact passed position context (Nat.lt_of_lt_of_le inside all) found
  | joins index inside =>
      have other := sound.outside rfl
      exact ⟨fun _ => other, passed⟩
  | joined index =>
      have other := sound.outside rfl
      exact ⟨fun _ => other, passed⟩
  | refuses | wins | stops | stopped | skips | clears | sets => exact .of_not_inPool rfl

theorem CallSound.of_contexts {app after : AppThreads} {stop : StopCall}
    (sound : CallSound app stop) (same : after.contexts = app.contexts) : CallSound after stop :=
  sound.mono (same ▸ .refl _)

/-- `Run` leaves the workers as they are. -/
theorem Sound.runs {app after : AppThreads} (sound : Sound app)
    (contexts : after.contexts = app.contexts) (stops : after.stops = app.stops)
    (signal : after.signalContext = app.signalContext) (workers : after.workers = app.workers)
    (later : app.run.PoolStarted → after.run.PoolStarted) : Sound after := by
  constructor
  · rw [workers, contexts]
    exact sound.fit
  · intro unstarted
    rw [workers]
    apply sound.unstarted
    exact fun before => unstarted (later before)
  · intro index found
    rw [workers] at found
    rw [stops, signal]
    exact sound.handling index found
  · intro stop member
    rw [stops] at member
    exact (sound.calls stop member).of_contexts contexts

/-- The pool had no worker, so each context has one worker now. -/
theorem Sound.startsPool {app after : AppThreads} (sound : Sound app)
    (early : ¬ app.run.PoolStarted) (started : after.run.PoolStarted)
    (contexts : after.contexts = app.contexts) (stops : after.stops = app.stops)
    (filled : after.workers = app.startPool.workers) : Sound after := by
  have none_yet : app.workers = [] := sound.unstarted early
  have spawned : after.workers = [] ∨ after.workers = app.contexts.map spawn := by
    obtain ⟨-, -, -, same | new⟩ := app.startPool_frame
    · exact Or.inl (filled.trans (same.trans none_yet))
    · right
      rw [filled, new, none_yet, List.nil_append]
  constructor
  · rw [contexts]
    rcases spawned with none_new | all
    · simp [none_new]
    · simp [all]
  · intro unstarted
    exact (unstarted started).elim
  · intro index found
    have member := List.mem_of_getElem? found
    rcases spawned with none_new | all
    · rw [none_new] at member
      cases member
    · rw [all] at member
      obtain ⟨context, -, spawning⟩ := List.mem_map.mp member
      exact (spawn_ne_inHandler context spawning).elim
  · intro stop member
    rw [stops] at member
    exact (sound.calls stop member).of_contexts contexts

theorem Sound.stepRun {app after : AppThreads} (sound : Sound app)
    (taken : app.stepRun = some after) : Sound after := by
  obtain ⟨contexts, stops, signal, workers⟩ := stepRun_frame taken
  rcases workers with ⟨same, later⟩ | ⟨early, started, filled⟩
  · exact sound.runs contexts stops signal same later
  · exact sound.startsPool early started contexts stops filled

theorem Sound.stepStop {app after : AppThreads} {call : Nat} {stop : StopCall}
    {next : ShutdownPc} (sound : Sound app) (at_ : app.stops[call]? = some stop)
    (outside : stop.pc = .claimPool → app.started = true → stop.thread = .other)
    (moves : StopMoves app stop.pc after next) :
    Sound { after with stops := app.stops.set call { stop with pc := next } } := by
  obtain ⟨-, run, signal, workers, contexts⟩ := moves.frame
  have length : after.contexts.length = app.contexts.length := contexts.1
  constructor
  · have fit := sound.fit
    rcases workers with same | cleared
    · simp only [same]
      omega
    · simp only [cleared, List.length_nil]
      omega
  · intro unstarted
    have none_yet : app.workers = [] := sound.unstarted (run ▸ unstarted)
    exact workers.elim (fun same => same.trans none_yet) id
  · intro index found
    rcases workers with same | cleared
    · obtain ⟨here, running, member, thread⟩ := sound.handling index (same ▸ found)
      refine ⟨here.trans signal.symm, ?_⟩
      rw [signal]
      -- The call that moves keeps its thread.
      by_cases moving : running = stop
      · subst moving
        obtain ⟨inside, -⟩ := List.getElem?_eq_some_iff.mp at_
        exact ⟨_, List.mem_of_getElem? (List.getElem?_set_self inside), thread⟩
      · exact ⟨running, ListSet.mem_set_of_ne at_ member moving _, thread⟩
    · simp [cleared] at found
  · apply ListSet.forall_mem_set
    · intro other member
      have kept := (sound.calls other member).mono contexts
      exact ⟨kept.outside, kept.contexts⟩
    · have moved := (sound.calls stop (List.mem_of_getElem? at_)).moves outside moves
      exact ⟨moved.outside, moved.contexts⟩

/-- A new call has not reached the pool. -/
theorem Sound.call {app after : AppThreads} (sound : Sound app) {thread : Thread}
    (contexts : after.contexts = app.contexts)
    (stops : after.stops = app.stops ++ [⟨thread, .exchange⟩]) :
    ∀ stop ∈ after.stops, CallSound after stop := by
  intro stop member
  rw [stops] at member
  rcases List.mem_append.mp member with before | new
  · exact (sound.calls stop before).of_contexts contexts
  · rw [List.mem_singleton.mp new]
    exact .of_not_inPool rfl

/-- A worker that goes on or leaves is not in the handler. -/
theorem Sound.setWorker {app : AppThreads} (sound : Sound app) (index : Nat) {pc : WorkerPc}
    (other : pc ≠ .inHandler) : Sound { app with workers := app.workers.set index pc } := by
  constructor
  · simpa using sound.fit
  · intro unstarted
    simp [sound.unstarted unstarted]
  · intro position found
    exact sound.handling position (ListSet.getElem?_of_set found other)
  · intro stop member
    exact (sound.calls stop member).of_contexts rfl

theorem Sound.dispatch {app : AppThreads} (sound : Sound app) :
    Sound { app with
      signal := .handled
      workers := app.workers.set app.signalContext .inHandler
      stops := app.stops ++ [⟨.worker app.signalContext, .exchange⟩] } := by
  constructor
  · simpa using sound.fit
  · intro unstarted
    simp [sound.unstarted unstarted]
  · intro index found
    refine ⟨?_, _, List.mem_append_right _ (List.mem_singleton_self _), rfl⟩
    by_contra elsewhere
    rw [List.getElem?_set_ne (Ne.symm elsewhere)] at found
    exact elsewhere (sound.handling index found).1
  · exact sound.call rfl rfl

theorem Sound.step {app after : AppThreads} {action : Action} (sound : Sound app)
    (outside : ClaimedOutside app action) (taken : app.step action = some after) :
    Sound after := by
  cases step_moves taken with
  | runs ran => exact sound.stepRun ran
  | calls =>
      refine ⟨sound.fit, sound.unstarted, fun index found => ?_, sound.call rfl rfl⟩
      obtain ⟨here, stop, member, thread⟩ := sound.handling index found
      exact ⟨here, stop, List.mem_append_left _ member, thread⟩
  | stops call at_ moves => exact sound.stepStop at_ (outside _ at_) moves
  | signals waiting => exact sound.runs rfl rfl rfl rfl id
  | dispatches running => exact sound.dispatch
  | leaves handling => exact sound.setWorker app.signalContext (by simp)
  | exits worker running => exact sound.setWorker worker (by simp)

end AppThreads

end Chmicro
