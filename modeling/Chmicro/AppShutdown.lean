import Chmicro.AppMoves
import Chmicro.ListSet

set_option autoImplicit false

namespace Chmicro.App

/-- `Run` has started what the call stops next. -/
def TargetStarted (app : App) : StopPc → Prop
  | .stopServer index => index < app.servers.length → index < app.run.begun app.servers.length
  | .stopPool => app.run.PoolStarted
  | .exchange | .setStopped | .finished | .refused => True

instance (app : App) : (pc : StopPc) → Decidable (TargetStarted app pc)
  | .stopServer index => inferInstanceAs (Decidable
      (index < app.servers.length → index < app.run.begun app.servers.length))
  | .stopPool => inferInstanceAs (Decidable app.run.PoolStarted)
  | .exchange | .setStopped | .finished | .refused => isTrue trivial

/-- Once `Run` has cleared `stopped_`, a call of `Stop` only stops what `Run` has started.
When it clears the flag, no call under way has stopped anything. -/
def StopsStarted (app : App) : Action → Prop
  | .run => app.run = .resetStopped →
      ∀ pc ∈ app.stops, pc.passed app.servers.length = 0 ∧ pc ≠ .setStopped
  | .stop call => app.run.Cleared → ∀ pc ∈ app.stops[call]?, TargetStarted app pc
  | .callStop => True

instance (app : App) : (action : Action) → Decidable (StopsStarted app action)
  | .run => inferInstanceAs (Decidable (app.run = .resetStopped →
      ∀ pc ∈ app.stops, pc.passed app.servers.length = 0 ∧ pc ≠ .setStopped))
  | .stop call => inferInstanceAs (Decidable
      (app.run.Cleared → ∀ pc ∈ app.stops[call]?, TargetStarted app pc))
  | .callStop => isTrue trivial

/-- What a call under way has achieved: a server that is up stands in the part of the list
the call has not reached, and a pool it has stopped stays stopped. -/
structure Progress (app : App) (pc : StopPc) : Prop where
  behind : pc.passed app.servers.length ≤ app.run.begun app.servers.length
  ahead : ∀ server, app.up server = true →
    ∃ index, pc.passed app.servers.length ≤ index ∧ app.servers[index]? = some server
  pool : pc = .setStopped → app.run.PoolStarted ∧ app.pool.started = false

/-- Everything is started that will be, and nothing of it is up. -/
structure Down (app : App) : Prop where
  all : app.servers.length ≤ app.run.begun app.servers.length
  started : app.run.PoolStarted
  servers : ∀ server, app.up server = false
  pool : app.pool.started = false

structure Orderly (app : App) : Prop where
  bounded : ∀ index, app.run = .startServer index → index ≤ app.servers.length
  listed : ∀ server, app.up server = true → server ∈ app.servers
  joined : app.pool.Joined
  progress : app.run.Cleared → ∀ pc ∈ app.stops, Progress app pc
  down : app.run.Cleared → app.stopped = true → Down app
  returned : app.run = .returned → app.stopped = true

theorem begin_orderly (servers : List ServerId) (contexts : List IoContext)
    (stopped stopRequested : Bool) : Orderly (begin servers contexts stopped stopRequested) where
  bounded := fun _ impossible => by cases impossible
  listed := fun _ impossible => by cases impossible
  joined := fun _ => rfl
  progress := fun impossible => by cases impossible
  down := fun impossible => by cases impossible
  returned := fun impossible => by cases impossible

/-- A call that has stopped nothing yet owes nothing. -/
theorem Progress.none_yet {app : App} {pc : StopPc}
    (listed : ∀ server, app.up server = true → server ∈ app.servers)
    (none_yet : pc.passed app.servers.length = 0) (other : pc ≠ .setStopped) : Progress app pc where
  behind := by omega
  ahead := fun server up => by
    obtain ⟨index, found⟩ := List.mem_iff_getElem?.mp (listed server up)
    exact ⟨index, by omega, found⟩
  pool := fun impossible => (other impossible).elim

/-- Progress survives a step that starts nothing behind the call. -/
theorem Progress.mono {app after : App} {pc : StopPc} (progress : Progress app pc)
    (servers : after.servers = app.servers)
    (begun : app.run.begun app.servers.length ≤ after.run.begun app.servers.length)
    (up : ∀ server, after.up server = true → app.up server = true)
    (pool : app.run.PoolStarted → app.pool.started = false →
      after.run.PoolStarted ∧ after.pool.started = false) : Progress after pc where
  behind := by
    rw [servers]
    exact Nat.le_trans progress.behind begun
  ahead := fun server isUp => by
    rw [servers]
    exact progress.ahead server (up server isUp)
  pool := fun at_ => pool (progress.pool at_).1 (progress.pool at_).2

theorem Down.mono {app after : App} (down : Down app) (servers : after.servers = app.servers)
    (begun : app.run.begun app.servers.length ≤ after.run.begun app.servers.length)
    (started : after.run.PoolStarted)
    (up : ∀ server, after.up server = true → app.up server = true)
    (pool : after.pool.started = false) : Down after where
  all := by
    rw [servers]
    exact Nat.le_trans down.all begun
  started := started
  servers := fun server => by
    by_contra isUp
    have impossible := up server (by simpa using isUp)
    simp [down.servers server] at impossible
  pool := pool

theorem setUp_true_up {app : App} {server other : ServerId}
    (isUp : (app.setUp server true).up other = true) : other = server ∨ app.up other = true := by
  by_cases same : other = server
  · exact Or.inl same
  · exact Or.inr (by simpa [setUp, same] using isUp)

theorem setUp_false_up {app : App} {server other : ServerId}
    (isUp : (app.setUp server false).up other = true) : other ≠ server ∧ app.up other = true := by
  by_cases same : other = server
  · simp [setUp, same] at isUp
  · exact ⟨same, by simpa [setUp, same] using isUp⟩

/-- Before the pool is started nothing has been stopped for good. -/
theorem Orderly.not_stopped {app : App} (orderly : Orderly app) (cleared : app.run.Cleared)
    (early : ¬ app.run.PoolStarted) : app.stopped ≠ true := by
  intro set
  exact early (orderly.down cleared set).started

/-- Before the pool is started the calls keep their progress through any step of `Run`. -/
theorem Orderly.progress_early {app after : App} (orderly : Orderly app)
    (cleared : app.run.Cleared) (early : ¬ app.run.PoolStarted)
    (servers : after.servers = app.servers) (up : after.up = app.up) :
    ∀ pc ∈ app.stops, Progress after pc := by
  intro pc member
  have none_begun : app.run.begun app.servers.length = 0 := by
    cases at_ : app.run <;> simp [at_, RunPc.begun, RunPc.PoolStarted] at early ⊢
  have begun : app.run.begun app.servers.length ≤ after.run.begun app.servers.length := by
    rw [none_begun]
    exact Nat.zero_le _
  apply (orderly.progress cleared pc member).mono servers begun
  · intro server isUp
    rwa [up] at isUp
  · intro started
    exact (early started).elim

theorem Orderly.starts {app : App} {index : Nat} {server : ServerId} (orderly : Orderly app)
    (at_ : app.run = .startServer index) (listed : app.servers[index]? = some server) :
    Orderly { app.setUp server true with run := .startServer (index + 1) } := by
  have cleared : app.run.Cleared := by rw [at_]; trivial
  obtain ⟨inside, -⟩ := List.getElem?_eq_some_iff.mp listed
  constructor
  · intro other same
    cases same
    exact inside
  · intro other isUp
    rcases setUp_true_up isUp with rfl | before
    · exact List.mem_of_getElem? listed
    · exact orderly.listed other before
  · exact orderly.joined
  · -- The server that comes up stands at the position `Run` has reached.
    intro _ pc member
    have progress := orderly.progress cleared pc member
    have behind := progress.behind
    rw [at_] at behind
    constructor
    · exact Nat.le_succ_of_le behind
    · intro other isUp
      rcases setUp_true_up isUp with rfl | before
      · exact ⟨index, behind, listed⟩
      · exact progress.ahead other before
    · intro stopping
      exact ⟨trivial, (progress.pool stopping).2⟩
  · intro _ set
    have all := (orderly.down cleared set).all
    rw [at_] at all
    exact (Nat.not_lt_of_le all inside).elim
  · intro impossible
    cases impossible

/-- `Run` goes on when every server is started. -/
theorem Orderly.goesOn {app : App} {pc : RunPc} {registered : Bool} (orderly : Orderly app)
    (cleared : app.run.Cleared) (started : pc = .wait ∨ pc = .returned)
    (begun : app.run.begun app.servers.length ≤ app.servers.length)
    (returned : pc = .returned → app.stopped = true) :
    Orderly { app with registered := registered, run := pc } := by
  have all : app.run.begun app.servers.length ≤ pc.begun app.servers.length := by
    rcases started with rfl | rfl <;> exact begun
  have pool : pc.PoolStarted := by rcases started with rfl | rfl <;> trivial
  constructor
  · intro index same
    rcases started with rfl | rfl <;> cases same
  · exact orderly.listed
  · exact orderly.joined
  · intro _ stopping member
    have progress := orderly.progress cleared stopping member
    exact progress.mono rfl all (fun _ up => up) fun _ closed => ⟨pool, closed⟩
  · intro _ set
    have down := orderly.down cleared set
    exact down.mono rfl all pool (fun _ up => up) down.pool
  · exact returned

theorem Orderly.stepRun {app after : App} (orderly : Orderly app)
    (timely : StopsStarted app .run) (moves : Moves app .run after) : Orderly after := by
  cases moves with
  | registers at_ =>
      exact ⟨fun _ impossible => (by cases impossible), orderly.listed, orderly.joined,
        fun impossible => (by cases impossible), fun impossible => (by cases impossible),
        fun impossible => (by cases impossible)⟩
  | clears at_ =>
      refine ⟨fun _ impossible => (by cases impossible), orderly.listed, orderly.joined, ?_,
        fun _ impossible => (by cases impossible), fun impossible => (by cases impossible)⟩
      intro _ pc member
      obtain ⟨nothing, other⟩ := timely at_ pc member
      exact .none_yet orderly.listed nothing other
  | forgets at_ | listens at_ =>
      have cleared : app.run.Cleared := by rw [at_]; trivial
      have early : ¬ app.run.PoolStarted := by rw [at_]; exact id
      refine ⟨fun _ impossible => (by cases impossible), orderly.listed, orderly.joined,
        fun _ => orderly.progress_early cleared early rfl rfl, fun _ set => ?_,
        fun impossible => (by cases impossible)⟩
      exact (orderly.not_stopped cleared early set).elim
  | startsPool at_ =>
      have cleared : app.run.Cleared := by rw [at_]; trivial
      have early : ¬ app.run.PoolStarted := by rw [at_]; exact id
      refine ⟨fun index same => ?_, orderly.listed, .start app.pool,
        fun _ => orderly.progress_early cleared early rfl rfl, fun _ set => ?_,
        fun impossible => (by cases impossible)⟩
      · cases same
        exact Nat.zero_le _
      · exact (orderly.not_stopped cleared early set).elim
  | starts index server at_ listed => exact orderly.starts at_ listed
  | waits index at_ all =>
      have cleared : app.run.Cleared := by rw [at_]; trivial
      have bound := orderly.bounded index at_
      apply orderly.goesOn cleared (Or.inl rfl)
      · rw [at_]
        exact bound
      · intro impossible
        cases impossible
  | returns at_ stopped =>
      have cleared : app.run.Cleared := by rw [at_]; trivial
      apply orderly.goesOn cleared (Or.inr rfl)
      · rw [at_]
        exact Nat.le_of_eq rfl
      · exact fun _ => stopped

/-- A step of one call leaves the progress of the others, since it brings nothing up. -/
theorem Orderly.stepCall {app after : App} {call : Nat} {next : StopPc} (orderly : Orderly app)
    (run : after.run = app.run) (servers : after.servers = app.servers)
    (up : ∀ server, after.up server = true → app.up server = true)
    (joined : after.pool.Joined)
    (pool : app.pool.started = false → after.pool.started = false)
    (stopped : after.stopped = app.stopped) (stops : after.stops = app.stops.set call next)
    (moving : app.run.Cleared → Progress after next) : Orderly after := by
  constructor
  · intro index at_
    rw [servers]
    exact orderly.bounded index (run ▸ at_)
  · intro server isUp
    rw [servers]
    exact orderly.listed server (up server isUp)
  · exact joined
  · intro cleared pc member
    rw [run] at cleared
    rw [stops] at member
    rcases List.mem_or_eq_of_mem_set member with old | new
    · apply (orderly.progress cleared pc old).mono servers (Nat.le_of_eq (by rw [run])) up
      intro started closed
      exact ⟨run ▸ started, pool closed⟩
    · rw [new]
      exact moving cleared
  · intro cleared set
    rw [run] at cleared
    have down := orderly.down cleared (stopped ▸ set)
    exact down.mono servers (Nat.le_of_eq (by rw [run])) (run ▸ down.started) up (pool down.pool)
  · intro returned
    rw [stopped]
    exact orderly.returned (run ▸ returned)

theorem Orderly.stopsServer {app : App} {call index : Nat} {server : ServerId}
    (orderly : Orderly app) (begun : app.run.Cleared → index < app.run.begun app.servers.length)
    (at_ : app.stops[call]? = some (.stopServer index))
    (listed : app.servers[index]? = some server) :
    Orderly { app.setUp server false with stops := app.stops.set call (.stopServer (index + 1)) } := by
  refine orderly.stepCall rfl rfl (fun other isUp => (setUp_false_up isUp).2) orderly.joined id rfl rfl ?_
  intro cleared
  have progress := orderly.progress cleared _ (List.mem_of_getElem? at_)
  constructor
  · exact begun cleared
  · intro other isUp
    obtain ⟨different, before⟩ := setUp_false_up isUp
    obtain ⟨position, ahead, standing⟩ := progress.ahead other before
    have elsewhere : position ≠ index := by
      rintro rfl
      exact different (Option.some.inj (standing.symm.trans listed))
    have later : index < position := Nat.lt_of_le_of_ne ahead (Ne.symm elsewhere)
    exact ⟨position, later, standing⟩
  · intro impossible
    cases impossible

theorem Orderly.stopped {app : App} {call index : Nat} (orderly : Orderly app)
    (at_ : app.stops[call]? = some (.stopServer index)) (all : app.servers.length ≤ index) :
    Orderly { app with stops := app.stops.set call .stopPool } := by
  refine orderly.stepCall rfl rfl (fun _ up => up) orderly.joined id rfl rfl ?_
  intro cleared
  have progress := orderly.progress cleared _ (List.mem_of_getElem? at_)
  constructor
  · exact Nat.le_trans all progress.behind
  · intro other isUp
    obtain ⟨position, ahead, standing⟩ := progress.ahead other isUp
    exact ⟨position, Nat.le_trans all ahead, standing⟩
  · intro impossible
    cases impossible

theorem Orderly.stopsPool {app : App} {call : Nat} (orderly : Orderly app)
    (started : app.run.Cleared → app.run.PoolStarted)
    (at_ : app.stops[call]? = some .stopPool) :
    Orderly { app with pool := app.pool.stop, stops := app.stops.set call .setStopped } := by
  have pool : app.pool.stop.started = false := IoContextPool.stop_started _
  refine orderly.stepCall rfl rfl (fun _ up => up) orderly.joined.stop (fun _ => pool) rfl rfl ?_
  intro cleared
  have progress := orderly.progress cleared _ (List.mem_of_getElem? at_)
  exact ⟨progress.behind, progress.ahead, fun _ => ⟨started cleared, pool⟩⟩

/-- The call that sets `stopped_` has stopped everything. -/
theorem Orderly.finishes {app : App} {call : Nat} (orderly : Orderly app)
    (at_ : app.stops[call]? = some .setStopped) :
    Orderly { app with stopped := true, stops := app.stops.set call .finished } := by
  constructor
  · exact orderly.bounded
  · exact orderly.listed
  · exact orderly.joined
  · intro cleared
    apply ListSet.forall_mem_set
    · intro pc member
      exact (orderly.progress cleared pc member).mono rfl (Nat.le_refl _) (fun _ up => up) And.intro
    · exact .none_yet orderly.listed rfl (by simp)
  · intro cleared _
    have progress := orderly.progress cleared _ (List.mem_of_getElem? at_)
    obtain ⟨started, pool⟩ := progress.pool rfl
    refine ⟨progress.behind, started, fun server => ?_, pool⟩
    -- No position is left that the call has not reached.
    by_contra isUp
    obtain ⟨index, ahead, standing⟩ := progress.ahead server (by simpa using isUp)
    obtain ⟨inside, -⟩ := List.getElem?_eq_some_iff.mp standing
    exact Nat.not_lt_of_le ahead inside
  · exact fun _ => rfl

theorem Orderly.stepStop {app after : App} {call : Nat} (orderly : Orderly app)
    (timely : StopsStarted app (.stop call)) (moves : Moves app (.stop call) after) :
    Orderly after := by
  cases moves with
  | refuses call at_ requested =>
      refine orderly.stepCall rfl rfl (fun _ up => up) orderly.joined id rfl rfl ?_
      exact fun _ => .none_yet orderly.listed rfl (by simp)
  | wins call at_ first =>
      refine orderly.stepCall rfl rfl (fun _ up => up) orderly.joined id rfl rfl ?_
      exact fun _ => .none_yet orderly.listed rfl (by simp)
  | stops call index server at_ listed =>
      obtain ⟨inside, -⟩ := List.getElem?_eq_some_iff.mp listed
      exact orderly.stopsServer (fun cleared => timely cleared _ at_ inside) at_ listed
  | stopped call index at_ all => exact orderly.stopped at_ all
  | stopsPool call at_ => exact orderly.stopsPool (fun cleared => timely cleared _ at_) at_
  | finishes call at_ => exact orderly.finishes at_

theorem Orderly.step {app after : App} {action : Action} (orderly : Orderly app)
    (timely : StopsStarted app action) (taken : app.step action = some after) : Orderly after := by
  have moves := step_moves taken
  cases action with
  | run => exact orderly.stepRun timely moves
  | stop call => exact orderly.stepStop timely moves
  | callStop =>
      cases moves
      refine ⟨orderly.bounded, orderly.listed, orderly.joined, fun cleared pc member => ?_,
        fun cleared set => ?_, orderly.returned⟩
      · rcases List.mem_append.mp member with before | new
        · exact (orderly.progress cleared pc before).mono rfl (Nat.le_refl _) (fun _ up => up)
            And.intro
        · rw [List.mem_singleton.mp new]
          exact .none_yet orderly.listed rfl (by simp)
      · have down := orderly.down cleared set
        exact down.mono rfl (Nat.le_refl _) down.started (fun _ up => up) down.pool

/-- In a run whose calls of `Stop` only stop what is started, `Run` returns when every server
was stopped after its last start, the pool is not started and no worker is live. -/
theorem run_returns_after_shutdown (servers : List ServerId) (contexts : List IoContext)
    (stopped stopRequested : Bool) (actions : List Action) (app : App)
    (reached : Transition.run step (begin servers contexts stopped stopRequested) actions = some app)
    (timely : Transition.Meets step StopsStarted
      (begin servers contexts stopped stopRequested) actions)
    (returned : app.run = .returned) :
    (∀ server, app.up server = false) ∧ app.pool.started = false ∧
      ∀ worker ∈ app.pool.workers, worker.live = false := by
  have orderly : Orderly app := Transition.invariant step StopsStarted Orderly
    (fun _ _ _ orderly timely taken => orderly.step timely taken)
    (begin_orderly servers contexts stopped stopRequested) timely reached
  have cleared : app.run.Cleared := by rw [returned]; trivial
  have down := orderly.down cleared (orderly.returned returned)
  refine ⟨down.servers, down.pool, fun worker member => ?_⟩
  rw [orderly.joined down.pool] at member
  cases member

theorem run_returns_after_shutdown_at_wait :
    ∃ app, Transition.run step (begin [0] [{}] false false)
        (runToWait ++ wholeStop 0 ++ [.run]) = some app ∧
      (∀ server, app.up server = false) ∧ app.pool.started = false ∧
      ∀ worker ∈ app.pool.workers, worker.live = false :=
  ⟨_, rfl, run_returns_after_shutdown [0] [{}] false false
    (runToWait ++ wholeStop 0 ++ [.run]) _ rfl (by decide) rfl⟩

/-- A call of `Stop` that falls between the resets and the starts stops nothing, and `Run`
returns with the server up and the pool running. -/
theorem early_stop_stops_nothing :
    ∃ app, Transition.run step (begin [0] [{}] false false)
        (runToWait.take 4 ++ wholeStop 0 ++ runToWait.drop 4 ++ [.run]) = some app ∧
      app.run = .returned ∧ app.up 0 = true ∧ app.pool.started = true ∧
      app.pool.workers = [{ context := 0, live := true }] :=
  ⟨_, rfl, rfl, rfl, rfl, rfl⟩

end Chmicro.App
