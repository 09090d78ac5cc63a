import Mathlib
import Chmicro.ListSet
import Chmicro.LoadSessionChain

set_option autoImplicit false

namespace Chmicro.Loadgen

/-- What `main` reads of the options. -/
structure RunOptions where
  session : Options := {}
  concurrency : Nat := 128
  warmupSeconds : Int := 2
  durationSeconds : Int := 10
  deriving DecidableEq

/-- `main` replaces counts that make no run. -/
def RunOptions.clamp (opt : RunOptions) : RunOptions :=
  { opt with
    concurrency := if opt.concurrency = 0 then 1 else opt.concurrency
    durationSeconds := if opt.durationSeconds ≤ 0 then 10 else opt.durationSeconds }

/-- Where the main thread is: it makes sessions, so many of them still, or it sleeps while the
threads run the context. -/
inductive MainPc where
  | makeWarmup (left : Nat)
  | warmup
  | makeMeasured (left : Nat)
  | measured
  | done
  deriving DecidableEq, Repr

namespace MainPc

/-- The sessions that are still to be made. -/
def left : MainPc → Nat
  | .makeWarmup left | .makeMeasured left => left
  | _ => 0

/-- The warm-up is not over yet. -/
def Warming : MainPc → Prop
  | .makeWarmup _ | .warmup => True
  | _ => False

/-- The measured part has begun, and is not over yet. -/
def Measuring : MainPc → Prop
  | .makeMeasured _ | .measured => True
  | _ => False

end MainPc

/-- The program, with times in nanoseconds. All sessions share one context. -/
structure Generator where
  opt : RunOptions
  pc : MainPc
  clock : Nat
  stopAt : Nat
  stop : Bool := false
  sessions : List SessionLoop := []

namespace Generator

inductive Action where
  | tick (nanos : Nat)
  | main
  | complete (session : Nat) (completion : SessionCompletion)
  -- A handler reads the clock after a while, asks whether to stop, and reads it again.
  | dispatch (session index : Nat) (untilEnd untilStop untilStart : Nat)

def nanos (seconds : Int) : Nat := seconds.toNat * 1000 * 1000 * 1000

/-- `ShouldStop()` at a time. -/
def shouldStop (generator : Generator) (now : Nat) : Bool :=
  generator.stop || decide (generator.stopAt ≤ now)

/-- The program once its options are read. -/
def start (opt : RunOptions) (clock : Nat) : Generator :=
  let opt := opt.clamp
  if opt.warmupSeconds > 0 then
    { opt, pc := .makeWarmup opt.concurrency, clock, stopAt := clock + nanos opt.warmupSeconds }
  else
    { opt, pc := .makeMeasured opt.concurrency, clock
      stopAt := clock + nanos opt.durationSeconds }

/-- One more session is made and started. -/
def spawn (generator : Generator) (pc : MainPc) : Generator :=
  let input : Readings := { stop := generator.shouldStop generator.clock }
  { generator with
    pc
    sessions := generator.sessions ++ [LoadSession.start generator.opt.session input] }

/-- The main thread. It sleeps until the time that the sessions look at, or longer, and then
stops the context. A context that is restarted goes on with what was queued in it. -/
def stepMain (generator : Generator) : Option Generator :=
  match generator.pc with
  | .makeWarmup (left + 1) => some (generator.spawn (.makeWarmup left))
  | .makeWarmup 0 => some { generator with pc := .warmup }
  | .warmup =>
      if generator.stopAt ≤ generator.clock then
        some { generator with
          pc := .makeMeasured generator.opt.concurrency
          stopAt := generator.clock + nanos generator.opt.durationSeconds }
      else none
  | .makeMeasured (left + 1) => some (generator.spawn (.makeMeasured left))
  | .makeMeasured 0 => some { generator with pc := .measured }
  | .measured =>
      if generator.stopAt ≤ generator.clock then
        some { generator with pc := .done, stop := true }
      else none
  | .done => none

def runs (generator : Generator) : Bool :=
  match generator.pc with
  | .warmup | .measured => true
  | _ => false

/-- What a handler reads that is run now. -/
def readings (generator : Generator) (untilEnd untilStop untilStart : Nat) : Readings where
  endNs := UInt64.ofNat (generator.clock + untilEnd)
  stop := generator.shouldStop (generator.clock + untilEnd + untilStop)
  startNs := UInt64.ofNat (generator.clock + untilEnd + untilStop + untilStart)

/-- A session takes a step. -/
def stepSession (generator : Generator) (session : Nat)
    (event : EventPool.Event SessionCompletion Readings) : Option Generator :=
  (generator.sessions[session]?).bind fun loop =>
    (LoadSession.program.step loop event).map fun after =>
      { generator with sessions := generator.sessions.set session after }

def step (generator : Generator) : Action → Option Generator
  | .tick nanos => some { generator with clock := generator.clock + nanos }
  | .main => generator.stepMain
  | .complete session completion => generator.stepSession session (.complete completion)
  | .dispatch session index untilEnd untilStop untilStart =>
      if generator.runs then
        let input := generator.readings untilEnd untilStop untilStart
        (generator.stepSession session (.dispatch index input)).map fun after =>
          { after with clock := after.clock + untilEnd + untilStop + untilStart }
      else none

/-- Every way the main thread moves. -/
inductive MainMoves (generator : Generator) : Generator → Prop where
  | makesWarmup (left : Nat) (pc : generator.pc = .makeWarmup (left + 1)) :
      MainMoves generator (generator.spawn (.makeWarmup left))
  | warms (pc : generator.pc = .makeWarmup 0) : MainMoves generator { generator with pc := .warmup }
  | restarts (pc : generator.pc = .warmup) (over_ : generator.stopAt ≤ generator.clock) :
      MainMoves generator { generator with
        pc := .makeMeasured generator.opt.concurrency
        stopAt := generator.clock + nanos generator.opt.durationSeconds }
  | makes (left : Nat) (pc : generator.pc = .makeMeasured (left + 1)) :
      MainMoves generator (generator.spawn (.makeMeasured left))
  | measures (pc : generator.pc = .makeMeasured 0) :
      MainMoves generator { generator with pc := .measured }
  | ends (pc : generator.pc = .measured) (over_ : generator.stopAt ≤ generator.clock) :
      MainMoves generator { generator with pc := .done, stop := true }

theorem stepMain_moves {generator after : Generator} (taken : generator.stepMain = some after) :
    MainMoves generator after := by
  simp only [stepMain] at taken
  split at taken
  · rename_i left pc
    cases taken
    exact .makesWarmup left pc
  · rename_i pc
    cases taken
    exact .warms pc
  · rename_i pc
    obtain ⟨over_, moved⟩ := Option.ite_none_right_eq_some.mp taken
    cases moved
    exact .restarts pc over_
  · rename_i left pc
    cases taken
    exact .makes left pc
  · rename_i pc
    cases taken
    exact .measures pc
  · rename_i pc
    obtain ⟨over_, moved⟩ := Option.ite_none_right_eq_some.mp taken
    cases moved
    exact .ends pc over_
  · cases taken

/-- A handler runs at the readings of the clock. -/
theorem dispatch_eq_some {generator after : Generator} {session index untilEnd untilStop
    untilStart : Nat}
    (taken : generator.step (.dispatch session index untilEnd untilStop untilStart) = some after) :
    ∃ moved, generator.stepSession session (.dispatch index
        (generator.readings untilEnd untilStop untilStart)) = some moved ∧
      after = { moved with clock := moved.clock + untilEnd + untilStop + untilStart } := by
  obtain ⟨-, ran⟩ := Option.ite_none_right_eq_some.mp taken
  obtain ⟨moved, stepped, rfl⟩ := Option.map_eq_some_iff.mp ran
  exact ⟨moved, stepped, rfl⟩

/-- The sessions with a step under way: each of them makes requests one after the other. -/
def inFlight (generator : Generator) : Nat := (generator.sessions.map LoadSession.links).sum

open LoadSession

/-- Each session has one step under way at most. -/
def Single (generator : Generator) : Prop :=
  ∀ loop ∈ generator.sessions, Chain 1 loop ∨ Chain 0 loop

section Steps

variable {generator after : Generator}

theorem single_step {loop next : SessionLoop} {event : EventPool.Event SessionCompletion Readings}
    (single : Chain 1 loop ∨ Chain 0 loop) (taken : program.step loop event = some next) :
    (Chain 1 next ∨ Chain 0 next) ∧ (¬ Stops event → links next = links loop) := by
  rcases single with one | none_
  · rcases one.step taken with still | ⟨stops, ended⟩
    · exact ⟨.inl still, fun _ => still.links.trans one.links.symm⟩
    · exact ⟨.inr ended, fun go => (go stops).elim⟩
  · have ended := (none_.step_ended taken).1
    exact ⟨.inr ended, fun _ => ended.links.trans none_.links.symm⟩

/-- A session's step changes the number of steps under way only when the session is told to
stop. -/
theorem stepSession_links {session : Nat} {event : EventPool.Event SessionCompletion Readings}
    (single : Single generator) (taken : generator.stepSession session event = some after) :
    Single after ∧ (¬ Stops event → after.inFlight = generator.inFlight) ∧
      after = { generator with sessions := after.sessions } := by
  obtain ⟨loop, found, stepped⟩ := Option.bind_eq_some_iff.mp taken
  obtain ⟨next, moved, rfl⟩ := Option.map_eq_some_iff.mp stepped
  obtain ⟨still, same⟩ := single_step (single loop (List.mem_of_getElem? found)) moved
  refine ⟨ListSet.forall_mem_set single still, fun go => ?_, rfl⟩
  have sums := ListSet.sum_map_set_add links found next
  rw [same go] at sums
  exact Nat.add_right_cancel sums

/-- A session that is made before it is to stop has one step under way. -/
theorem spawn_links (single : Single generator) (pc : MainPc) :
    Single (generator.spawn pc) ∧
    (generator.shouldStop generator.clock = false →
      (generator.spawn pc).inFlight = generator.inFlight + 1) := by
  have goes := goes_start generator.opt.session
    { stop := generator.shouldStop generator.clock }
  constructor
  · intro loop member
    rcases List.mem_append.mp member with old | new
    · exact single loop old
    · rw [List.mem_singleton.mp new]
      exact goes.chain
  · intro go
    have one : Chain 1 (LoadSession.start generator.opt.session
        { stop := generator.shouldStop generator.clock }) := by
      cases goes with
      | on one => exact one
      | ends stop ended => exact absurd (go.symm.trans stop) Bool.false_ne_true
    show (List.map links (_ ++ [_])).sum = _
    rw [List.map_append, List.sum_append, List.map_singleton, List.sum_singleton, one.links]
    rfl

end Steps

/-- Before the time to stop nothing is told to stop. -/
theorem unseen {generator : Generator} {stopAt now : Nat} (go : generator.stop = false)
    (time : generator.stopAt = stopAt) (before : now < stopAt) :
    generator.shouldStop now = false := by
  rw [shouldStop, go, time, decide_eq_false (Nat.not_le.mpr before)]
  rfl

/-- Until the time to stop, sessions are only added. -/
structure Adding (base stopAt : Nat) (generator : Generator) : Prop where
  single : Single generator
  time : generator.stopAt = stopAt
  phase : generator.pc.Measuring ∨ generator.pc = .done
  early : generator.clock < stopAt → generator.stop = false ∧ generator.pc.Measuring ∧
    generator.inFlight + generator.pc.left = base

section Adding

variable {base stopAt : Nat} {generator after : Generator} (adding : Adding base stopAt generator)

include adding

theorem Adding.main (taken : generator.stepMain = some after) : Adding base stopAt after := by
  obtain ⟨single, time, phase, early⟩ := adding
  cases stepMain_moves taken with
  | makesWarmup left pc => simp [MainPc.Measuring, pc] at phase
  | warms pc => simp [MainPc.Measuring, pc] at phase
  | restarts pc => simp [MainPc.Measuring, pc] at phase
  | makes left pc =>
      rw [pc] at early
      obtain ⟨kept, grown⟩ := spawn_links single (.makeMeasured left)
      refine ⟨kept, time, .inl trivial, fun before => ?_⟩
      obtain ⟨go, -, counted⟩ := early before
      refine ⟨go, trivial, ?_⟩
      rw [grown (unseen go time before)]
      show _ + left = base
      rw [← counted]
      exact Nat.add_right_comm _ _ _
  | measures pc =>
      rw [pc] at early
      exact ⟨single, time, .inl trivial, early⟩
  | ends pc over_ =>
      exact ⟨single, time, .inr rfl, fun before => absurd (time ▸ over_) (Nat.not_le.mpr before)⟩

/-- A handler that asks before the time to stop is not told to stop. -/
theorem Adding.unstopped (index untilEnd untilStop untilStart : Nat)
    (before : generator.clock + untilEnd + untilStop < stopAt) :
    ¬ Stops (.dispatch index (generator.readings untilEnd untilStop untilStart)) := by
  obtain ⟨go, -, -⟩ := adding.early (by omega)
  show ¬ generator.shouldStop _ = true
  rw [unseen go adding.time before]
  exact Bool.false_ne_true

theorem Adding.step {action : Action} (taken : generator.step action = some after) :
    Adding base stopAt after := by
  cases action with
  | tick nanos =>
      cases taken
      refine ⟨adding.single, adding.time, adding.phase, fun before => adding.early ?_⟩
      exact Nat.lt_of_le_of_lt (Nat.le_add_right _ _) before
  | main => exact adding.main taken
  | complete session completion =>
      obtain ⟨kept, same, frame⟩ := stepSession_links adding.single taken
      rw [frame]
      rw [frame] at same
      refine ⟨kept, adding.time, adding.phase, fun before => ?_⟩
      rw [same id]
      exact adding.early before
  | dispatch session index untilEnd untilStop untilStart =>
      obtain ⟨moved, ran, rfl⟩ := dispatch_eq_some taken
      obtain ⟨kept, same, frame⟩ := stepSession_links adding.single ran
      rw [frame] at same ⊢
      refine ⟨kept, adding.time, adding.phase, fun before => ?_⟩
      dsimp only at before
      obtain ⟨go, measuring, counted⟩ := adding.early (by omega)
      refine ⟨go, measuring, ?_⟩
      have unstopped := adding.unstopped index untilEnd untilStop untilStart (by omega)
      exact (congrArg (· + _) (same unstopped)).trans counted

end Adding

section Runs

open Transition

/-- A session has come from one state to the other by its own steps, and none told it to stop. -/
def GoesOn (loop now : SessionLoop) : Prop :=
  ∃ events, run program.step loop events = some now ∧ ∀ event ∈ events, ¬ Stops event

theorem GoesOn.refl (loop : SessionLoop) : GoesOn loop loop :=
  ⟨[], rfl, fun _ impossible => by cases impossible⟩

theorem GoesOn.step {loop now next : SessionLoop}
    {event : EventPool.Event SessionCompletion Readings} (goes : GoesOn loop now)
    (taken : program.step now event = some next) (go : ¬ Stops event) : GoesOn loop next := by
  obtain ⟨events, reached, unstopped⟩ := goes
  refine ⟨events ++ [event], ?_, List.forall_mem_append.mpr ⟨unstopped, by simpa using go⟩⟩
  rw [run_append, reached, Option.bind_some, run_cons, taken, Option.bind_some, run_nil]

/-- It has as many steps under way as before. -/
theorem GoesOn.links {loop now : SessionLoop} (goes : GoesOn loop now)
    (single : Chain 1 loop ∨ Chain 0 loop) : LoadSession.links now = LoadSession.links loop := by
  obtain ⟨events, reached, unstopped⟩ := goes
  have kept : (Chain 1 now ∨ Chain 0 now) ∧ LoadSession.links now = LoadSession.links loop := by
    refine invariant program.step (fun _ event => ¬ Stops event)
      (fun now => (Chain 1 now ∨ Chain 0 now) ∧ LoadSession.links now = LoadSession.links loop) ?_
      ⟨single, rfl⟩ (Meets.of_mem program.step unstopped loop) reached
    intro before event after kept go taken
    obtain ⟨still, same⟩ := single_step kept.1 taken
    exact ⟨still, (same go).trans kept.2⟩
  exact kept.2

/-- Each of the first sessions is still there, and has gone on. -/
def Kept (first sessions : List SessionLoop) : Prop :=
  ∀ (session : Nat) (loop : SessionLoop), first[session]? = some loop →
    ∃ now, sessions[session]? = some now ∧ GoesOn loop now

theorem Kept.concat {first sessions : List SessionLoop} (kept : Kept first sessions)
    (new : SessionLoop) : Kept first (sessions ++ [new]) := by
  intro session loop found
  obtain ⟨now, listed, goes⟩ := kept session loop found
  obtain ⟨inside, -⟩ := List.getElem?_eq_some_iff.mp listed
  exact ⟨now, by rwa [List.getElem?_append_left inside], goes⟩

theorem Kept.stepSession {first : List SessionLoop} {generator after : Generator} {number : Nat}
    {event : EventPool.Event SessionCompletion Readings} (kept : Kept first generator.sessions)
    (go : ¬ Stops event) (moved : generator.stepSession number event = some after) :
    Kept first after.sessions := by
  obtain ⟨before, standing, stepped⟩ := Option.bind_eq_some_iff.mp moved
  obtain ⟨next, taken, rfl⟩ := Option.map_eq_some_iff.mp stepped
  intro session loop found
  obtain ⟨now, listed, goes⟩ := kept session loop found
  by_cases here : number = session
  · subst here
    obtain rfl : before = now := Option.some.inj (standing.symm.trans listed)
    obtain ⟨inside, -⟩ := List.getElem?_eq_some_iff.mp listed
    exact ⟨next, List.getElem?_set_self inside, goes.step taken go⟩
  · exact ⟨now, (List.getElem?_set_ne here).trans listed, goes⟩

/-- Until the time to stop, the first sessions go on. -/
structure Staying (first : List SessionLoop) (base stopAt : Nat) (generator : Generator) : Prop
    where
  adding : Adding base stopAt generator
  kept : generator.clock < stopAt → Kept first generator.sessions

theorem Staying.step {first : List SessionLoop} {base stopAt : Nat} {generator after : Generator}
    {action : Action} (staying : Staying first base stopAt generator)
    (taken : generator.step action = some after) : Staying first base stopAt after := by
  refine ⟨staying.adding.step taken, fun before => ?_⟩
  cases action with
  | tick nanos =>
      cases taken
      exact staying.kept (Nat.lt_of_le_of_lt (Nat.le_add_right _ _) before)
  | complete session completion =>
      have frame := (stepSession_links staying.adding.single taken).2.2
      rw [frame] at before
      exact (staying.kept before).stepSession id taken
  | dispatch session index untilEnd untilStop untilStart =>
      obtain ⟨moved, ran, rfl⟩ := dispatch_eq_some taken
      have frame := (stepSession_links staying.adding.single ran).2.2
      rw [frame] at before
      dsimp only at before
      have unstopped := staying.adding.unstopped index untilEnd untilStop untilStart (by omega)
      have kept : Kept first moved.sessions :=
        (staying.kept (by omega)).stepSession unstopped ran
      exact kept
  | main =>
      have moves : MainMoves generator after := stepMain_moves taken
      cases moves with
      | makesWarmup | makes => exact (staying.kept before).concat _
      | warms | restarts | measures | ends => exact staying.kept before

/-- Nothing is told to stop by the action. -/
def Unseen (generator : Generator) : Action → Prop
  | .main =>
      match generator.pc with
      | .makeWarmup (_ + 1) | .makeMeasured (_ + 1) =>
          generator.shouldStop generator.clock = false
      | _ => True
  | .dispatch _ _ untilEnd untilStop _ =>
      generator.shouldStop (generator.clock + untilEnd + untilStop) = false
  | _ => True

instance (generator : Generator) (action : Action) : Decidable (Unseen generator action) := by
  unfold Unseen
  split
  · split <;> infer_instance
  · infer_instance
  · infer_instance

/-- The sessions of the warm-up are made, so many in all. -/
structure Warm (count : Nat) (generator : Generator) : Prop where
  single : Single generator
  options : generator.opt.concurrency = count
  going : generator.pc.Warming → generator.stop = false
  made : generator.pc.Warming → generator.sessions.length + generator.pc.left = count

variable {count : Nat} {generator after : Generator}

theorem Warm.main (warm : Warm count generator) (taken : generator.stepMain = some after) :
    Warm count after := by
  obtain ⟨single, same, going, made⟩ := warm
  cases stepMain_moves taken with
  | makesWarmup left pc =>
      rw [pc] at going made
      refine ⟨(spawn_links single _).1, same, going, fun _ => ?_⟩
      have before := made trivial
      show (generator.sessions ++ [_]).length + left = count
      rw [List.length_append, List.length_singleton, ← before]
      exact Nat.add_right_comm _ _ _
  | warms pc =>
      rw [pc] at going made
      exact ⟨single, same, going, made⟩
  | makes =>
      exact ⟨(spawn_links single _).1, same, fun impossible => impossible.elim,
        fun impossible => impossible.elim⟩
  | restarts | measures | ends =>
      exact ⟨single, same, fun impossible => impossible.elim, fun impossible => impossible.elim⟩

theorem Warm.step {action : Action} (warm : Warm count generator)
    (taken : generator.step action = some after) : Warm count after := by
  have session {number : Nat} {event : EventPool.Event SessionCompletion Readings}
      {next : Generator} (moved : generator.stepSession number event = some next) :
      Warm count next := by
    obtain ⟨kept, -, frame⟩ := stepSession_links warm.single moved
    obtain ⟨loop, -, stepped⟩ := Option.bind_eq_some_iff.mp moved
    obtain ⟨after, -, rfl⟩ := Option.map_eq_some_iff.mp stepped
    refine ⟨kept, warm.options, warm.going, fun warming => ?_⟩
    show (generator.sessions.set _ _).length + _ = _
    rw [List.length_set]
    exact warm.made warming
  cases action with
  | tick nanos =>
      cases taken
      exact ⟨warm.single, warm.options, warm.going, warm.made⟩
  | main => exact warm.main taken
  | complete number completion => exact session taken
  | dispatch number index untilEnd untilStop untilStart =>
      obtain ⟨moved, ran, rfl⟩ := dispatch_eq_some taken
      have kept := session ran
      exact ⟨kept.single, kept.options, kept.going, kept.made⟩

/-- No session has stopped. -/
def Full (generator : Generator) : Prop := ∀ loop ∈ generator.sessions, Chain 1 loop

theorem Full.spawn (full : Full generator) (pc : MainPc)
    (go : generator.shouldStop generator.clock = false) : Full (generator.spawn pc) := by
  intro loop member
  rcases List.mem_append.mp member with old | new
  · exact full loop old
  · rw [List.mem_singleton.mp new]
    cases goes_start generator.opt.session { stop := generator.shouldStop generator.clock } with
    | on one => exact one
    | ends stop ended => exact absurd (go.symm.trans stop) Bool.false_ne_true

theorem Full.session {number : Nat} {event : EventPool.Event SessionCompletion Readings}
    (full : Full generator) (go : ¬ Stops event)
    (moved : generator.stepSession number event = some after) : Full after := by
  obtain ⟨loop, found, stepped⟩ := Option.bind_eq_some_iff.mp moved
  obtain ⟨next, taken, rfl⟩ := Option.map_eq_some_iff.mp stepped
  refine ListSet.forall_mem_set full ?_
  rcases (full loop (List.mem_of_getElem? found)).step taken with one | ⟨stops, -⟩
  · exact one
  · exact (go stops).elim

theorem Full.step {action : Action} (full : Full generator) (go : Unseen generator action)
    (taken : generator.step action = some after) : Full after := by
  cases action with
  | tick nanos =>
      cases taken
      exact full
  | complete number completion => exact full.session id taken
  | dispatch number index untilEnd untilStop untilStart =>
      obtain ⟨moved, ran, rfl⟩ := dispatch_eq_some taken
      have kept : Full moved := full.session (fun stops => by
        have told : generator.shouldStop (generator.clock + untilEnd + untilStop) = true := stops
        exact absurd (go.symm.trans told) Bool.false_ne_true) ran
      exact kept
  | main =>
      have moves : MainMoves generator after := stepMain_moves taken
      simp only [Unseen] at go
      cases moves with
      | makesWarmup left pc | makes left pc =>
          rw [pc] at go
          exact full.spawn _ go
      | warms | restarts | measures | ends => exact full

theorem Full.inFlight (full : Full generator) : generator.inFlight = generator.sessions.length := by
  rw [Generator.inFlight, List.map_congr_left fun loop member => (full loop member).links,
    List.map_const', List.sum_replicate, smul_eq_mul, Nat.mul_one]

theorem Single.inFlight_le (single : Single generator) :
    generator.inFlight ≤ generator.sessions.length := by
  have each : ∀ count ∈ generator.sessions.map links, count ≤ 1 := by
    intro count member
    obtain ⟨loop, inside, rfl⟩ := List.mem_map.mp member
    rcases single loop inside with one | none_
    · exact le_of_eq one.links
    · exact le_of_eq_of_le none_.links (Nat.zero_le 1)
  have sum := List.sum_le_card_nsmul _ 1 each
  rwa [List.length_map, smul_eq_mul, Nat.mul_one] at sum

theorem start_warm (opt : RunOptions) (clock : Nat) :
    Warm opt.clamp.concurrency (start opt clock) ∧ Full (start opt clock) := by
  unfold start
  dsimp only
  split
  · exact ⟨⟨by simp [Single], rfl, fun _ => rfl, fun _ => Nat.zero_add _⟩, by simp [Full]⟩
  · exact ⟨⟨by simp [Single], rfl, fun impossible => impossible.elim,
      fun impossible => impossible.elim⟩, by simp [Full]⟩

/-- The sessions of the warm-up stay for the measured part, and each goes on from where it was,
with the step it had under way. Until the time to stop as many sessions run as the options ask
for, and with them every session of the warm-up that has not been told to stop: twice as many,
when none has. -/
theorem warmup_sessions_stay (opt : RunOptions) (clock : Nat) (before : List Action)
    (asleep : Generator) (reached : run step (start opt clock) before = some asleep)
    (warmup : asleep.pc = .warmup) (more : List Action) (later : Generator)
    (ran : run step asleep (.main :: more) = some later) (measured : later.pc = .measured)
    (early : later.clock < later.stopAt) :
    (∀ (session : Nat) (loop : SessionLoop), asleep.sessions[session]? = some loop →
      ∃ now, later.sessions[session]? = some now ∧ GoesOn loop now ∧ links now = links loop) ∧
    later.inFlight = asleep.inFlight + opt.clamp.concurrency ∧
    asleep.inFlight ≤ opt.clamp.concurrency ∧
    (Meets step Unseen (start opt clock) before → asleep.inFlight = opt.clamp.concurrency) := by
  obtain ⟨initial, full⟩ := start_warm opt clock
  have warm := invariant_always step (Warm opt.clamp.concurrency)
    (fun _ _ _ warm taken => warm.step taken) initial reached
  have made := warm.made (by rw [warmup]; trivial)
  rw [warmup] at made
  obtain ⟨begun, taken, rest⟩ := (run_cons_eq_some step).mp ran
  have staying : Staying asleep.sessions (asleep.inFlight + opt.clamp.concurrency) begun.stopAt
      begun := by
    simp only [step, stepMain, warmup] at taken
    split at taken
    · cases taken
      refine ⟨⟨warm.single, rfl, .inl trivial, fun _ => ⟨?_, trivial, ?_⟩⟩, fun _ _ loop found => ?_⟩
      · exact warm.going (by rw [warmup]; trivial)
      · exact congrArg (_ + ·) warm.options
      · exact ⟨loop, found, .refl loop⟩
    · cases taken
  have after := invariant_always step
    (Staying asleep.sessions (asleep.inFlight + opt.clamp.concurrency) begun.stopAt)
    (fun _ _ _ staying taken => staying.step taken) staying rest
  have before : later.clock < begun.stopAt := after.adding.time ▸ early
  refine ⟨fun session loop found => ?_, ?_, ?_, fun unseen => ?_⟩
  · obtain ⟨now, listed, goes⟩ := after.kept before session loop found
    exact ⟨now, listed, goes, goes.links (warm.single loop (List.mem_of_getElem? found))⟩
  · have counted := (after.adding.early before).2.2
    rw [measured] at counted
    exact counted
  · exact le_of_le_of_eq warm.single.inFlight_le made
  · have full := invariant step Unseen Full (fun _ _ _ full unseen taken => full.step unseen taken)
      full unseen reached
    exact full.inFlight.trans made

/-- One session for a warm-up of one second, and one more for the measured part. -/
def oneSession : RunOptions where
  concurrency := 1
  warmupSeconds := 1

def warmingUp : List Action := [.main, .main, .tick (nanos 1)]

theorem warmup_sessions_stay_one : ∃ asleep later loop now,
    run step (start oneSession 0) warmingUp = some asleep ∧ asleep.sessions[0]? = some loop ∧
    links loop = 1 ∧ run step asleep [.main, .main, .main] = some later ∧
    later.sessions[0]? = some now ∧ GoesOn loop now ∧ links now = 1 ∧ later.inFlight = 2 := by
  obtain ⟨stays, doubled, -, unseen⟩ := warmup_sessions_stay oneSession 0 warmingUp _ rfl rfl
    [.main, .main] _ rfl rfl (by decide)
  obtain ⟨now, listed, goes, same⟩ := stays 0 _ rfl
  refine ⟨_, _, _, now, rfl, rfl, rfl, rfl, listed, goes, same, ?_⟩
  rw [doubled, unseen]
  · rfl
  · decide

end Runs

end Generator

end Chmicro.Loadgen
