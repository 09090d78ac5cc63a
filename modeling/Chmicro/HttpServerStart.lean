import Chmicro.HttpServer
import Chmicro.ListSet

set_option autoImplicit false

namespace Chmicro.Http.HttpServer

open Transition

/-- The chain of accepts that the last start began has gone on to now. -/
def Accepting (server : HttpServer) : Prop :=
  server.starts ∈ server.accepts.map Accept.start

/-- The flag says whether the server accepts, and a start that fails leaves the server as it
was before any start. -/
structure Traceless (before : HttpServer) (action : Action) (after : HttpServer) : Prop where
  running : after.running = true ↔ after.acceptor = .listening ∧ after.Accepting
  failed : ∀ steps, action = .start steps → before.running = false → ¬ steps.Pass →
    after.running = false ∧ after.acceptor = .closed

/-- A start that finds the flag clear gets past each of its steps. -/
def StartsPass (server : HttpServer) : Action → Prop
  | .start steps => server.running = false → steps.Pass
  | _ => True

structure Sound (server : HttpServer) : Prop where
  up : server.running = true → server.acceptor = .listening ∧ server.Accepting
  down : server.running = false → server.acceptor = .closed

theorem Sound.running_iff {server : HttpServer} (sound : Sound server) :
    server.running = true ↔ server.acceptor = .listening ∧ server.Accepting := by
  constructor
  · exact sound.up
  · rintro ⟨listening, -⟩
    by_contra idle
    have closed := sound.down (by simpa using idle)
    rw [listening] at closed
    cases closed

theorem set_starts {accepts : List Accept} {accept start : Nat} {before : Option AcceptResult}
    (at_ : accepts[accept]? = some ⟨start, before⟩) (after : Option AcceptResult) :
    (accepts.set accept ⟨start, after⟩).map Accept.start = accepts.map Accept.start := by
  obtain ⟨inside, found⟩ := List.getElem?_eq_some_iff.mp at_
  have place : accept < (accepts.map Accept.start).length := by simpa using inside
  have own : (accepts.map Accept.start)[accept] = start := by simp [found]
  have kept := List.set_getElem_self place
  rw [own] at kept
  rw [List.map_set]
  exact kept

/-- The chain of the last start goes on when one of its handlers has run while the flag is set. -/
theorem Accepting.handles {server : HttpServer} (accepting : server.Accepting)
    (running : server.running = true) {accept start : Nat} {result : AcceptResult}
    (at_ : server.accepts[accept]? = some ⟨start, some result⟩) :
    (onAccept { server with accepts := server.accepts.eraseIdx accept } start result).Accepting := by
  obtain ⟨inside, found⟩ := List.getElem?_eq_some_iff.mp at_
  have again : onAccept { server with accepts := server.accepts.eraseIdx accept } start result =
      doAccept { server with accepts := server.accepts.eraseIdx accept } start := by
    cases result with
    | accepted => rfl
    | failed => simp only [onAccept, running, ↓reduceIte]
  rw [again, Accepting, doAccept_starts]
  simp only [doAccept, List.map_append, List.mem_append, List.map_cons, List.map_nil,
    List.mem_singleton]
  by_cases own : server.starts = start
  · exact .inr own
  · left
    obtain ⟨other, member, same⟩ := List.mem_map.mp accepting
    have different : other ≠ ⟨start, some result⟩ := by
      rintro rfl
      exact own same.symm
    exact List.mem_map.mpr ⟨other, ListSet.mem_eraseIdx_of_ne at_ member different, same⟩

theorem Sound.step {server after : HttpServer} {action : Action} (sound : Sound server)
    (passes : StartsPass server action) (taken : server.step action = some after) :
    Sound after := by
  cases step_moves taken with
  | starts steps =>
      cases running : server.running with
      | true =>
          rw [start_running running]
          exact sound
      | false =>
          rw [start_passes running (passes running)]
          refine ⟨fun _ => ⟨rfl, ?_⟩, fun impossible => (by cases impossible)⟩
          simp [Accepting]
  | stops =>
      cases running : server.running with
      | true =>
          rw [stop_running running]
          exact ⟨fun impossible => (by cases impossible), fun _ => rfl⟩
      | false =>
          rw [stop_idle running]
          exact sound
  | completes accept result start at_ =>
      refine ⟨fun running => ⟨(sound.up running).1, ?_⟩, sound.down⟩
      have accepting := (sound.up running).2
      have same := set_starts at_ (some result)
      rw [Accepting, same]
      exact accepting
  | handles accept start result at_ =>
      constructor
      · intro running
        rw [onAccept_running] at running
        rw [onAccept_acceptor]
        obtain ⟨listening, accepting⟩ := sound.up running
        exact ⟨listening, accepting.handles running at_⟩
      · intro idle
        rw [onAccept_running] at idle
        rw [onAccept_acceptor]
        exact sound.down idle

/-- A start that fails has set the flag, and no acceptor is listening. -/
theorem Traceless.passes {server : HttpServer} {steps : StartSteps}
    (traceless : Traceless server (.start steps) (server.start steps))
    (idle : server.running = false) : steps.Pass := by
  by_contra fails
  obtain ⟨acceptor, same, -⟩ := start_fails idle fails
  have cleared := (traceless.failed steps rfl idle fails).1
  rw [same] at cleared
  cases cleared

/-- Starts leave no trace when they fail, throughout a history, just when none of them fails. -/
theorem traceless_iff (actions : List Action) :
    Along step Traceless {} actions ↔ Meets step StartsPass {} actions := by
  apply along_iff_meets step Sound
  · intro before action after sound passes taken
    exact sound.step passes taken
  · intro before action sound
    constructor
    · intro traceless
      cases action with
      | start steps => exact (traceless _ rfl).passes
      | stop | complete | handle => trivial
    · intro passes after taken
      have next := sound.step passes taken
      refine ⟨next.running_iff, fun steps same idle fails => ?_⟩
      subst same
      exact (fails (passes idle)).elim
  · exact ⟨fun impossible => (by cases impossible), fun _ => rfl⟩

/-- After a bind that failed, the flag is set, the acceptor is open and the next start does
nothing. -/
theorem failed_bind_blocks_restart :
    ∃ after, run step {} [.start { bind := false }, .start {}] = some after ∧
      after.running = true ∧ after.acceptor = .opened ∧ after.accepts = [] :=
  ⟨_, rfl, rfl, rfl, rfl⟩

end Chmicro.Http.HttpServer
