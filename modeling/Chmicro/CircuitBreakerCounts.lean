import Chmicro.CircuitBreakerClients

set_option autoImplicit false

namespace Chmicro.Resilience.Clients

open Transition

theorem step_opts {clients next : Clients} {call : ClientCall}
    (taken : clients.step call = some next) : next.breaker.opts = clients.breaker.opts := by
  cases call with
  | request now =>
      cases taken
      exact CircuitBreaker.allowRequest_opts _ _
  | success id =>
      obtain ⟨episode, awaited, rfl⟩ := callback_eq_some taken
      exact CircuitBreaker.onSuccess_opts _
  | failure id now =>
      obtain ⟨episode, awaited, rfl⟩ := callback_eq_some taken
      exact CircuitBreaker.onFailure_opts _ _

theorem run_opts {opts : CircuitBreakerOptions} {calls : List ClientCall} {clients : Clients}
    (reached : run step (fresh opts) calls = some clients) : clients.breaker.opts = opts.clamp :=
  invariant_always step (fun clients => clients.breaker.opts = opts.clamp)
    (fun _ _ _ same taken => (step_opts taken).trans same) rfl reached

/-- No admission and no report carries the number of an episode still to come. -/
structure Tagged (clients : Clients) : Prop where
  admitted : ∀ request ∈ clients.requests, request.episode ≤ clients.episode
  reported : ∀ request ∈ clients.requests, ∀ report ∈ request.report,
    report.episode ≤ clients.episode

theorem Tagged.later {clients : Clients} (tagged : Tagged clients) (breaker : CircuitBreaker)
    {episode : Nat} (later : clients.episode ≤ episode) :
    Tagged { breaker, episode, requests := clients.requests } where
  admitted := fun request member => Nat.le_trans (tagged.admitted request member) later
  reported := fun request member report reported =>
    Nat.le_trans (tagged.reported request member report reported) later

theorem Tagged.append {clients : Clients} (tagged : Tagged clients) (breaker : CircuitBreaker)
    {episode : Nat} (later : clients.episode ≤ episode) :
    Tagged { breaker, episode, requests := clients.requests ++ [{ episode }] } := by
  have before := tagged.later breaker later
  constructor
  · intro request member
    rcases List.mem_append.mp member with old | new
    · exact before.admitted request old
    · exact Nat.le_of_eq (congrArg Request.episode (List.mem_singleton.mp new))
  · intro request member report reported
    rcases List.mem_append.mp member with old | new
    · exact before.reported request old report reported
    · rw [List.mem_singleton.mp new] at reported
      cases reported

theorem Tagged.callback {clients next : Clients} {id : Nat} {outcome : Outcome}
    {breaker : CircuitBreaker} (tagged : Tagged clients)
    (taken : clients.callback id outcome breaker = some next) : Tagged next := by
  obtain ⟨episode, awaited, rfl⟩ := callback_eq_some taken
  constructor
  · intro request member
    rcases List.mem_or_eq_of_mem_set member with old | new
    · exact tagged.admitted request old
    · rw [new]
      exact tagged.admitted ⟨episode, none⟩ (List.mem_of_getElem? awaited)
  · intro request member report reported
    rcases List.mem_or_eq_of_mem_set member with old | new
    · exact tagged.reported request old report reported
    · rw [new] at reported
      cases reported
      exact Nat.le_refl _

theorem Tagged.step {clients next : Clients} {call : ClientCall} (tagged : Tagged clients)
    (taken : clients.step call = some next) : Tagged next := by
  cases call with
  | request now =>
      cases taken
      have later : clients.episode ≤ (clients.request now).episode := by
        simp only [request, History.record]
        split <;> omega
      by_cases admitted : (clients.breaker.allowRequest now).1
      · simpa only [request, History.record, admitted, ↓reduceIte] using
          tagged.append (clients.request now).breaker later
      · simpa only [request, History.record, admitted, Bool.false_eq_true, ↓reduceIte] using
          tagged.later (clients.request now).breaker later
  | success id => exact tagged.callback taken
  | failure id now => exact tagged.callback taken

/- The history counts after each of the steps that end in half-open. -/

section Counts

variable {clients : Clients} {breaker : CircuitBreaker}

/-- Nothing carries the number of an episode that begins now. -/
theorem outstanding_enters (tagged : Tagged clients) :
    History.outstanding
      { episode := clients.episode + 1
        requests := clients.requests ++ [{ episode := clients.episode + 1 }] } = 1 := by
  have none_before : clients.requests.countP (fun request =>
      decide (request.episode = clients.episode + 1 ∧ request.report = none)) = 0 := by
    rw [List.countP_eq_zero]
    intro request member holds
    have bound := tagged.admitted request member
    simp only [decide_eq_true_eq] at holds
    omega
  unfold History.outstanding
  dsimp only
  rw [List.countP_append, none_before]
  simp

theorem successReports_enters (tagged : Tagged clients) :
    successReports
      { breaker
        episode := clients.episode + 1
        requests := clients.requests ++ [{ episode := clients.episode + 1 }] } = 0 := by
  have none_before : clients.requests.countP (fun request =>
      decide (request.report = some ⟨.success, clients.episode + 1⟩)) = 0 := by
    rw [List.countP_eq_zero]
    intro request member holds
    simp only [decide_eq_true_eq] at holds
    have bound := tagged.reported request member _ holds
    dsimp only at bound
    omega
  unfold successReports
  dsimp only
  rw [List.countP_append, none_before]
  simp

theorem successReports_admits :
    successReports { clients with
      breaker
      requests := clients.requests ++ [{ episode := clients.episode }] } =
      clients.successReports := by
  simp [successReports, List.countP_append]

theorem successReports_success {id episode : Nat}
    (awaited : clients.requests[id]? = some ⟨episode, none⟩) :
    successReports { clients with
      breaker
      requests := clients.requests.set id ⟨episode, some ⟨.success, clients.episode⟩⟩ } =
      clients.successReports + 1 := by
  simpa [successReports] using ListSet.countP_set_add
    (fun request => decide (request.report = some ⟨.success, clients.episode⟩))
    awaited ⟨episode, some ⟨.success, clients.episode⟩⟩

end Counts

theorem fresh_tagged (opts : CircuitBreakerOptions) : Tagged (fresh opts) where
  admitted := fun request member => by cases member
  reported := fun request member => by cases member

/-- The first failure opens this breaker, and no time passes before it may be probed. -/
def eagerOptions : CircuitBreakerOptions where
  consecutiveFailuresToOpen := 1
  openInterval := 0

end Chmicro.Resilience.Clients
