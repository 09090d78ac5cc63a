import Chmicro.HttpServer
import Chmicro.ListSet

set_option autoImplicit false

namespace Chmicro.Http.HttpServer

open Transition

/-- The accepts that wait for a connection. -/
def outstanding (server : HttpServer) : Nat :=
  server.accepts.countP fun accept => accept.result = none

/-- The accepts of the chain that the last start began, outstanding or with a queued handler. -/
def chain (server : HttpServer) : Nat :=
  server.accepts.countP fun accept => accept.start = server.starts

/-- The handler of an accept from an earlier start runs, and finds an acceptor that listens. -/
def RunsStale (server : HttpServer) : Action → Prop
  | .handle accept => server.acceptor = .listening ∧
      ∃ found ∈ server.accepts[accept]?, found.result ≠ none ∧ found.start ≠ server.starts
  | _ => False

instance (server : HttpServer) : (action : Action) → Decidable (RunsStale server action)
  | .start _ | .stop | .complete _ _ => isFalse id
  | .handle accept => inferInstanceAs (Decidable (server.acceptor = .listening ∧
      ∃ found ∈ server.accepts[accept]?, found.result ≠ none ∧ found.start ≠ server.starts))

/-- One chain at most has not ended with the start it belongs to, and only that chain waits. -/
structure OneChain (server : HttpServer) : Prop where
  closed : server.running = false → server.acceptor = .closed
  waiting : ∀ accept ∈ server.accepts, accept.result = none →
    accept.start = server.starts ∧ server.acceptor = .listening
  single : server.chain ≤ 1
  past : ∀ accept ∈ server.accepts, accept.start ≤ server.starts

theorem OneChain.outstanding_le {server : HttpServer} (one : OneChain server) :
    server.outstanding ≤ 1 := by
  have within : server.outstanding ≤ server.chain := by
    apply List.countP_mono_left
    intro accept member waits
    have own := (one.waiting accept member (by simpa using waits)).1
    simpa using own
  have single := one.single
  omega

theorem OneChain.start_fails {server : HttpServer} (one : OneChain server) {acceptor : Acceptor}
    (closed : server.acceptor = .closed) :
    OneChain { server with running := true, acceptor } where
  closed := fun impossible => by cases impossible
  waiting := by
    intro accept member waits
    have listens := (one.waiting accept member waits).2
    rw [closed] at listens
    cases listens
  single := one.single
  past := one.past

/-- No accept waits while the acceptor is closed, so the start begins the only chain. -/
theorem OneChain.start_passes {server : HttpServer} (one : OneChain server)
    (idle : server.running = false) :
    OneChain
      { server with
        running := true
        acceptor := .listening
        starts := server.starts + 1
        accepts := server.accepts ++ [{ start := server.starts + 1 }] } := by
  have none_before : server.accepts.countP (fun accept =>
      decide (accept.start = server.starts + 1)) = 0 := by
    rw [List.countP_eq_zero]
    intro accept member same
    have bound := one.past accept member
    simp only [decide_eq_true_eq] at same
    omega
  constructor
  · intro impossible
    cases impossible
  · intro accept member waits
    rcases List.mem_append.mp member with old | new
    · have listens := (one.waiting accept old waits).2
      rw [one.closed idle] at listens
      cases listens
    · rw [List.mem_singleton.mp new]
      simp
  · unfold chain
    dsimp only
    rw [List.countP_append, none_before]
    simp
  · intro accept member
    rcases List.mem_append.mp member with old | new
    · exact Nat.le_succ_of_le (one.past accept old)
    · rw [List.mem_singleton.mp new]

theorem OneChain.stops {server : HttpServer} (one : OneChain server) :
    OneChain
      { server with
        running := false
        acceptor := .closed
        accepts := server.accepts.map Accept.cancel } := by
  constructor
  · intro _
    rfl
  · intro accept member waits
    obtain ⟨before, -, rfl⟩ := List.mem_map.mp member
    cases result : before.result <;> simp [Accept.cancel, result] at waits
  · have single := one.single
    unfold chain at single ⊢
    rwa [List.countP_map]
  · intro accept member
    obtain ⟨before, old, rfl⟩ := List.mem_map.mp member
    exact one.past before old

theorem OneChain.completes {server : HttpServer} (one : OneChain server) {accept start : Nat}
    (at_ : server.accepts[accept]? = some ⟨start, none⟩) (result : AcceptResult) :
    OneChain { server with accepts := server.accepts.set accept ⟨start, some result⟩ } := by
  constructor
  · exact one.closed
  · intro other member waits
    rcases List.mem_or_eq_of_mem_set member with old | new
    · exact one.waiting other old waits
    · rw [new] at waits
      cases waits
  · have moved := ListSet.countP_set_add (fun accept => decide (accept.start = server.starts))
      at_ ⟨start, some result⟩
    have single := one.single
    unfold chain at single ⊢
    dsimp only at moved ⊢
    omega
  · intro other member
    rcases List.mem_or_eq_of_mem_set member with old | new
    · exact one.past other old
    · have bound := one.past _ (List.mem_of_getElem? at_)
      rw [new]
      exact bound

/-- The accept whose handler runs leaves the list. -/
theorem OneChain.leaves {server : HttpServer} (one : OneChain server) (accept : Nat) :
    OneChain { server with accepts := server.accepts.eraseIdx accept } := by
  constructor
  · exact one.closed
  · intro other member waits
    exact one.waiting other (List.mem_of_mem_eraseIdx member) waits
  · have single := one.single
    have shorter : (server.accepts.eraseIdx accept).countP
        (fun accept => decide (accept.start = server.starts)) ≤ server.chain :=
      (List.eraseIdx_sublist server.accepts accept).countP_le
    exact Nat.le_trans shorter single
  · intro other member
    exact one.past other (List.mem_of_mem_eraseIdx member)

/-- An accept begins. It may wait when it belongs to the last start, whose chain is empty. -/
theorem OneChain.doAccept {server : HttpServer} (one : OneChain server) {start : Nat}
    (bound : start ≤ server.starts) (own : server.acceptor = .listening → start = server.starts)
    (room : start = server.starts → server.chain = 0) : OneChain (server.doAccept start) := by
  have counted : (server.doAccept start).chain =
      server.chain + if start = server.starts then 1 else 0 := by
    show List.countP (fun accept => decide (accept.start = server.starts))
      (server.accepts ++ [_]) = _
    rw [List.countP_append, List.countP_singleton]
    simp only [chain, decide_eq_true_eq]
  constructor
  · exact one.closed
  · intro accept member waits
    rcases List.mem_append.mp member with old | new
    · exact one.waiting accept old waits
    · rw [List.mem_singleton.mp new] at waits ⊢
      have listens : server.acceptor = .listening := by
        by_contra other
        simp [other] at waits
      exact ⟨own listens, listens⟩
  · have single := one.single
    rw [counted]
    split
    · rename_i same
      have empty := room same
      omega
    · exact single
  · intro accept member
    rcases List.mem_append.mp member with old | new
    · exact one.past accept old
    · rw [List.mem_singleton.mp new]
      exact bound

theorem OneChain.handles {server : HttpServer} (one : OneChain server) {accept start : Nat}
    {result : AcceptResult} (at_ : server.accepts[accept]? = some ⟨start, some result⟩)
    (own : server.acceptor = .listening → start = server.starts) :
    OneChain (onAccept { server with accepts := server.accepts.eraseIdx accept } start result) := by
  have left := one.leaves accept
  rcases onAccept_cases { server with accepts := server.accepts.eraseIdx accept } start result with
    ⟨-, ended⟩ | again
  · rw [ended]
    exact left
  · rw [again]
    apply left.doAccept
    · exact one.past _ (List.mem_of_getElem? at_)
    · exact own
    · intro same
      have erased := ListSet.countP_eraseIdx_add
        (fun accept => decide (accept.start = server.starts)) at_
      have single := one.single
      unfold chain at single ⊢
      simp only [same, decide_true, ↓reduceIte] at erased ⊢
      omega

theorem OneChain.step {server after : HttpServer} {action : Action} (one : OneChain server)
    (fresh : ¬ RunsStale server action) (taken : server.step action = some after) :
    OneChain after := by
  cases step_moves taken with
  | starts steps =>
      cases running : server.running with
      | true =>
          rw [start_running running]
          exact one
      | false =>
          by_cases pass : steps.Pass
          · rw [HttpServer.start_passes running pass]
            exact one.start_passes running
          · obtain ⟨acceptor, same, reached⟩ := HttpServer.start_fails running pass
            rw [same]
            exact one.start_fails (one.closed running)
  | stops =>
      cases running : server.running with
      | true =>
          rw [stop_running running]
          exact one.stops
      | false =>
          rw [stop_idle running]
          exact one
  | completes accept result start at_ => exact one.completes at_ result
  | handles accept start result at_ =>
      apply one.handles at_
      intro listens
      by_contra stale
      exact fresh ⟨listens, ⟨start, some result⟩, at_, by simp, stale⟩

/-- When no handler of an earlier start runs while the acceptor listens, one accept at most is
outstanding at any time. -/
theorem one_accept_outstanding (actions : List Action) (server : HttpServer)
    (reached : run step {} actions = some server)
    (fresh : Meets step (fun server action => ¬ RunsStale server action) {} actions) :
    server.outstanding ≤ 1 := by
  have initial : OneChain {} :=
    ⟨fun _ => rfl, fun _ impossible => (by cases impossible), Nat.zero_le 1,
      fun _ impossible => (by cases impossible)⟩
  have one : OneChain server := invariant step (fun server action => ¬ RunsStale server action)
    OneChain (fun _ _ _ one fresh taken => one.step fresh taken) initial fresh reached
  exact one.outstanding_le

theorem one_accept_outstanding_restarted :
    ∃ server, run step {} [.start {}, .complete 0 .accepted, .handle 0, .stop, .handle 0,
        .start {}] = some server ∧ server.outstanding ≤ 1 :=
  ⟨_, rfl, one_accept_outstanding [.start {}, .complete 0 .accepted, .handle 0, .stop, .handle 0,
    .start {}] _ rfl (by decide)⟩

/-- The handler of the accept that `Stop` cancelled runs after the next start, and accepts
again beside it. -/
theorem cancelled_handler_accepts_again :
    ∃ server, run step {} [.start {}, .stop, .start {}, .handle 0] = some server ∧
      server.outstanding = 2 :=
  ⟨_, rfl, rfl⟩

end Chmicro.Http.HttpServer
