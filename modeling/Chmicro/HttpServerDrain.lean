import Chmicro.HttpServerAccept

set_option autoImplicit false

namespace Chmicro.Http.HttpServer

open Transition

/-- The connections that were accepted and have no session yet. -/
def admitted (server : HttpServer) : Nat :=
  server.accepts.countP fun accept => accept.result = some .accepted

/-- The handlers that will still run on a server that has stopped. The handler of an accepted
connection accepts once more, in vain. -/
def due (server : HttpServer) : Nat := server.accepts.length + server.admitted

def Action.handles : Action → Bool
  | .handle _ => true
  | .start _ | .stop | .complete _ _ => false

/-- Nothing waits for a connection, and nothing can. -/
structure Stopped (server : HttpServer) : Prop where
  running : server.running = false
  acceptor : server.acceptor = .closed
  settled : ∀ accept ∈ server.accepts, accept.result ≠ none

variable {server after : HttpServer}

theorem Stopped.outstanding (stopped : Stopped server) : server.outstanding = 0 := by
  rw [HttpServer.outstanding, List.countP_eq_zero]
  intro accept member waits
  exact stopped.settled accept member (of_decide_eq_true waits)

theorem stop_stopped (running : server.running = true) : Stopped server.stop := by
  rw [stop_running running]
  refine ⟨rfl, rfl, ?_⟩
  intro accept member
  obtain ⟨before, -, rfl⟩ := List.mem_map.mp member
  cases result : before.result <;> simp [Accept.cancel, result]

/-- The accept whose handler runs is gone. -/
theorem Stopped.leaves (stopped : Stopped server) (accept : Nat) :
    Stopped { server with accepts := server.accepts.eraseIdx accept } where
  running := stopped.running
  acceptor := stopped.acceptor
  settled := fun other member => stopped.settled other (List.mem_of_mem_eraseIdx member)

/-- An accept on the closed acceptor fails at once. -/
theorem doAccept_closed (closed : server.acceptor = .closed) (start : Nat) :
    server.doAccept start =
      { server with accepts := server.accepts ++ [⟨start, some .failed⟩] } := by
  simp [doAccept, closed]

theorem due_eraseIdx {accept start : Nat} {result : AcceptResult}
    (at_ : server.accepts[accept]? = some ⟨start, some result⟩) :
    due { server with accepts := server.accepts.eraseIdx accept } + 1 +
      (if result = .accepted then 1 else 0) = server.due := by
  have fewer := ListSet.countP_eraseIdx_add
    (fun accept => decide (accept.result = some .accepted)) at_
  have inside : accept < server.accepts.length := (List.getElem?_eq_some_iff.mp at_).1
  have shorter := List.length_eraseIdx_of_lt inside
  simp only [Option.some.injEq, decide_eq_true_eq] at fewer
  unfold due admitted
  dsimp only
  omega

/-- Each handler brings a stopped server one nearer to its end. -/
theorem Stopped.step (stopped : Stopped server) {action : Action}
    (stays : ∀ steps, action ≠ .start steps) (taken : server.step action = some after) :
    Stopped after ∧ (if action.handles then 1 else 0) + after.due = server.due := by
  cases step_moves taken with
  | starts steps => exact absurd rfl (stays steps)
  | stops =>
      rw [stop_idle stopped.running]
      exact ⟨stopped, Nat.zero_add _⟩
  | completes accept result start at_ =>
      exact absurd rfl (stopped.settled _ (List.mem_of_getElem? at_))
  | handles accept start result at_ =>
      have left := stopped.leaves accept
      have fewer := due_eraseIdx at_
      cases result with
      | failed =>
          rw [onAccept, if_neg (by simp [stopped.running])]
          refine ⟨left, ?_⟩
          simp only [Action.handles, ↓reduceIte, reduceCtorEq] at fewer ⊢
          omega
      | accepted =>
          rw [onAccept, doAccept_closed left.acceptor]
          constructor
          · refine ⟨stopped.running, stopped.acceptor, List.forall_mem_append.mpr ⟨left.settled, ?_⟩⟩
            simp
          · have more : due { server with accepts := server.accepts.eraseIdx accept ++
                [⟨start, some .failed⟩] } =
                due { server with accepts := server.accepts.eraseIdx accept } + 1 := by
              simp only [due, admitted, List.length_append, List.countP_append]
              simp
              omega
            rw [more]
            simp only [Action.handles, ↓reduceIte] at fewer ⊢
            omega

theorem Stopped.run (stopped : Stopped server) {more : List Action}
    (stays : ∀ steps, .start steps ∉ more)
    (ran : Transition.run HttpServer.step server more = some after) :
    Stopped after ∧ more.countP Action.handles + after.due = server.due := by
  induction more generalizing server with
  | nil =>
      cases ran
      exact ⟨stopped, Nat.zero_add _⟩
  | cons action rest ih =>
      obtain ⟨next, taken, later⟩ := (run_cons_eq_some HttpServer.step).mp ran
      have first : ∀ steps, action ≠ .start steps := fun steps same =>
        stays steps (same ▸ List.mem_cons_self)
      obtain ⟨still, one⟩ := stopped.step first taken
      obtain ⟨last, others⟩ := ih still (fun steps member =>
        stays steps (List.mem_cons_of_mem _ member)) later
      refine ⟨last, ?_⟩
      rw [List.countP_cons]
      omega

/-- There is always a handler that can run, until none is due. -/
theorem Stopped.drains (stopped : Stopped server) : ∃ drained,
    Transition.run HttpServer.step server (List.replicate server.due (Action.handle 0)) = some drained ∧
      drained.accepts = [] := by
  generalize count : server.due = n
  induction n generalizing server with
  | zero =>
      refine ⟨server, rfl, List.eq_nil_of_length_eq_zero ?_⟩
      unfold due at count
      omega
  | succ n ih =>
      cases accepts : server.accepts with
      | nil =>
          rw [due, admitted, accepts] at count
          cases count
      | cons first rest =>
          have settled := stopped.settled first (accepts ▸ List.mem_cons_self)
          obtain ⟨start, result⟩ := first
          cases result with
          | none => exact absurd rfl settled
          | some result =>
              have here : server.accepts[0]? = some ⟨start, some result⟩ := by rw [accepts]; rfl
              obtain ⟨next, taken⟩ : ∃ next, server.step (.handle 0) = some next := by
                rw [HttpServer.step, here]
                exact ⟨_, rfl⟩
              obtain ⟨still, one⟩ := stopped.step (fun _ impossible => by cases impossible) taken
              have fewer : next.due = n := by
                simp only [Action.handles, ↓reduceIte] at one
                omega
              obtain ⟨drained, ran, empty⟩ := ih still fewer
              exact ⟨drained, (run_cons_eq_some HttpServer.step).mpr ⟨next, taken, ran⟩, empty⟩

/-- A server that does not run has stopped for good, but for the next start. -/
theorem stopped_of_idle {actions : List Action} (reached : Transition.run step {} actions = some server)
    (idle : server.running = false) : Stopped server := by
  have inv : server.running = false → Stopped server := by
    refine invariant_always step (fun server => server.running = false → Stopped server) ?_ ?_ reached
    · intro before action after stopped taken idle
      by_cases running : before.running = true
      · cases step_moves taken with
        | starts steps =>
            rw [start_running running, running] at idle
            cases idle
        | stops => exact stop_stopped running
        | completes => exact absurd (running.symm.trans idle) (by decide)
        | handles accept start result at_ =>
            rw [onAccept_running] at idle
            exact absurd (running.symm.trans idle) (by decide)
      · have stopped := stopped (Bool.eq_false_iff.mpr running)
        refine (stopped.step (fun steps same => ?_) taken).1
        subst same
        cases taken
        by_cases pass : steps.Pass
        · rw [start_passes stopped.running pass] at idle
          cases idle
        · obtain ⟨acceptor, same, -⟩ := start_fails stopped.running pass
          rw [same] at idle
          cases idle
    · exact fun _ => ⟨rfl, rfl, fun _ impossible => by cases impossible⟩
  exact inv idle

/-- A stop is for good until the next start, whatever was queued: nothing waits for a connection
any more, each handler that runs is one of a number that is fixed by then, and when they have
run nothing is left. -/
theorem stopped_drains (actions : List Action) (server : HttpServer)
    (reached : Transition.run step {} actions = some server) (more : List Action)
    (stays : ∀ steps, .start steps ∉ more) (after : HttpServer)
    (ran : Transition.run step server.stop more = some after) :
    after.running = false ∧ after.acceptor = .closed ∧ after.outstanding = 0 ∧
    more.countP Action.handles + after.due = server.stop.due ∧
    ∃ drained, Transition.run step after (List.replicate after.due (.handle 0)) = some drained ∧
      drained.accepts = [] := by
  have stopped : Stopped server.stop := by
    by_cases running : server.running = true
    · exact stop_stopped running
    · have idle := Bool.eq_false_iff.mpr running
      rw [stop_idle idle]
      exact stopped_of_idle reached idle
  obtain ⟨still, handlers⟩ := stopped.run stays ran
  exact ⟨still.running, still.acceptor, still.outstanding, handlers, still.drains⟩

/-- A connection is accepted before the stop, and its handler runs after it. -/
theorem stopped_drains_accepted : ∃ server after,
    Transition.run step {} [.start {}, .complete 0 .accepted] = some server ∧
    Transition.run step server.stop [.handle 0] = some after ∧
      server.stop.due = 2 ∧ after.due = 1 ∧ after.outstanding = 0 := by
  have drains := stopped_drains [.start {}, .complete 0 .accepted] _ rfl [.handle 0] (by simp) _ rfl
  refine ⟨_, _, rfl, rfl, rfl, ?_, drains.2.2.1⟩
  exact Nat.add_left_cancel (drains.2.2.2.1.trans (show _ = 1 + 1 from rfl))

end Chmicro.Http.HttpServer
