import Chmicro.CircuitBreakerCounts

set_option autoImplicit false

namespace Chmicro.Resilience.Clients

open Transition

/-- What the breaker counts in half-open: every success reported in the episode. -/
structure Counted (clients : Clients) : Prop where
  tagged : Tagged clients
  successes : clients.breaker.state = .halfOpen →
    clients.breaker.consecutiveSuccesses.toNat = clients.successReports ∧
      clients.breaker.consecutiveSuccesses < clients.breaker.opts.consecutiveSuccessesToClose

theorem fresh_counted (opts : CircuitBreakerOptions) : Counted (fresh opts) where
  tagged := fresh_tagged opts
  successes := fun half => by cases half

theorem Counted.step {clients next : Clients} {call : ClientCall} (counted : Counted clients)
    (taken : clients.step call = some next) : Counted next := by
  refine ⟨counted.tagged.step taken, fun half => ?_⟩
  cases step_halfOpen taken half with
  | refuses now before full => exact counted.successes before
  | enters now opened =>
      rw [successReports_enters counted.tagged]
      exact ⟨rfl, clients.breaker.opts.successes_pos⟩
  | admits now before room =>
      rw [successReports_admits]
      exact counted.successes before
  | counts id episode before few awaited =>
      obtain ⟨count, below⟩ := counted.successes before
      rw [successReports_success awaited, ← count]
      refine ⟨CircuitBreaker.toNat_succ_of_lt below, ?_⟩
      simpa only [CircuitBreaker.releaseSlot_opts] using few

/-- Every way a step leads from half-open to closed. -/
theorem closes_cases {clients next : Clients} {call : ClientCall}
    (taken : clients.step call = some next) (half : clients.breaker.state = .halfOpen)
    (closed : next.breaker.state = .closed) :
    ∃ id episode, call = .success id ∧ clients.requests[id]? = some ⟨episode, none⟩ ∧
      clients.breaker.opts.consecutiveSuccessesToClose ≤
        clients.breaker.consecutiveSuccesses + 1 ∧
      next = { clients with
        breaker := clients.breaker.onSuccess
        requests := clients.requests.set id ⟨episode, some ⟨.success, clients.episode⟩⟩ } := by
  cases call with
  | request now =>
      cases taken
      by_cases full : clients.breaker.opts.halfOpenMaxInflight ≤ clients.breaker.halfOpenInflight
      · simp [request, CircuitBreaker.allowRequest_full half full, half] at closed
      · simp [request, CircuitBreaker.allowRequest_admits half full, half] at closed
  | success id =>
      obtain ⟨episode, awaited, rfl⟩ := callback_eq_some taken
      refine ⟨id, episode, rfl, awaited, ?_, rfl⟩
      by_contra few
      simp [CircuitBreaker.onSuccess_counts half few, half] at closed
  | failure id now =>
      obtain ⟨episode, awaited, rfl⟩ := callback_eq_some taken
      simp [CircuitBreaker.onFailure_reopens half] at closed

/-- The breaker closes on exactly as many successes as its options ask for, of its probes
and of earlier requests together. -/
theorem Counted.closes {clients next : Clients} {call : ClientCall} (counted : Counted clients)
    (taken : clients.step call = some next) (half : clients.breaker.state = .halfOpen)
    (closed : next.breaker.state = .closed) :
    next.probeSuccesses + next.staleSuccesses =
      clients.breaker.opts.consecutiveSuccessesToClose.toNat := by
  obtain ⟨id, episode, -, awaited, enough, rfl⟩ := closes_cases taken half closed
  obtain ⟨count, below⟩ := counted.successes half
  rw [← successReports_split, successReports_success awaited, ← count]
  exact (CircuitBreaker.le_succ_iff_of_lt below).mp enough

/-- A step that closes the breaker finds enough successes of the episode's own probes. -/
def ClosedByProbes (needed : Nat) (clients : Clients) (_ : ClientCall) (next : Clients) : Prop :=
  clients.breaker.state = .halfOpen → next.breaker.state = .closed →
    needed ≤ next.probeSuccesses

/-- A step that closes the breaker finds no success of an earlier request in the episode. -/
def ClosedWithoutStale (clients : Clients) (_ : ClientCall) (next : Clients) : Prop :=
  clients.breaker.state = .halfOpen → next.breaker.state = .closed → next.staleSuccesses = 0

/-- In half-open only requests of the running episode report success. -/
def OwnSuccess (clients : Clients) : ClientCall → Prop
  | .success id => clients.breaker.state = .halfOpen →
      ∀ request ∈ clients.requests[id]?, request.episode = clients.episode
  | _ => True

instance (clients : Clients) : (call : ClientCall) → Decidable (OwnSuccess clients call)
  | .request _ | .failure _ _ => isTrue trivial
  | .success id => inferInstanceAs (Decidable (clients.breaker.state = .halfOpen →
      ∀ request ∈ clients.requests[id]?, request.episode = clients.episode))

theorem staleSuccesses_own {clients : Clients} {breaker : CircuitBreaker} {id : Nat}
    (awaited : clients.requests[id]? = some ⟨clients.episode, none⟩) :
    staleSuccesses { clients with
      breaker
      requests := clients.requests.set id
        ⟨clients.episode, some ⟨.success, clients.episode⟩⟩ } = clients.staleSuccesses := by
  simpa [staleSuccesses] using ListSet.countP_set_add
    (fun request => decide (request.report = some ⟨.success, clients.episode⟩ ∧
      request.episode ≠ clients.episode))
    awaited ⟨clients.episode, some ⟨.success, clients.episode⟩⟩

theorem staleSuccesses_admits {clients : Clients} {breaker : CircuitBreaker} :
    staleSuccesses { clients with
      breaker
      requests := clients.requests ++ [{ episode := clients.episode }] } =
      clients.staleSuccesses := by
  simp [staleSuccesses, List.countP_append]

/-- The invariant of the runs in which every success in half-open is a probe's. -/
structure Unmixed (clients : Clients) : Prop where
  counted : Counted clients
  stale : clients.breaker.state = .halfOpen → clients.staleSuccesses = 0

theorem Unmixed.step {clients next : Clients} {call : ClientCall} (unmixed : Unmixed clients)
    (own : OwnSuccess clients call) (taken : clients.step call = some next) : Unmixed next := by
  refine ⟨unmixed.counted.step taken, fun half => ?_⟩
  cases step_halfOpen taken half with
  | refuses now before full => exact unmixed.stale before
  | enters now opened =>
      have total := @successReports_enters clients
        { clients.breaker with
          state := .halfOpen
          consecutiveFailures := 0
          consecutiveSuccesses := 0
          halfOpenInflight := 1 } unmixed.counted.tagged
      rw [successReports_split] at total
      omega
  | admits now before room =>
      rw [staleSuccesses_admits]
      exact unmixed.stale before
  | counts id episode before few awaited =>
      obtain rfl : episode = clients.episode := own before ⟨episode, none⟩ awaited
      rw [staleSuccesses_own awaited]
      exact unmixed.stale before

theorem Unmixed.closes {clients next : Clients} {call : ClientCall} (unmixed : Unmixed clients)
    (own : OwnSuccess clients call) (taken : clients.step call = some next)
    (half : clients.breaker.state = .halfOpen) (closed : next.breaker.state = .closed) :
    next.staleSuccesses = 0 := by
  obtain ⟨id, episode, rfl, awaited, -, rfl⟩ := closes_cases taken half closed
  obtain rfl : episode = clients.episode := own half ⟨episode, none⟩ awaited
  rw [staleSuccesses_own awaited]
  exact unmixed.stale half

theorem closedByProbes_iff {clients next : Clients} {call : ClientCall} (counted : Counted clients)
    (taken : clients.step call = some next) :
    ClosedByProbes clients.breaker.opts.consecutiveSuccessesToClose.toNat clients call next ↔
      ClosedWithoutStale clients call next := by
  constructor
  · intro probed half closed
    have total := counted.closes taken half closed
    have enough := probed half closed
    omega
  · intro unmixed half closed
    have total := counted.closes taken half closed
    have none_stale := unmixed half closed
    omega

/-- Along a run in which only probes report success in half-open, the breaker closes on
their successes alone. In any run it does so exactly when no episode that ends by closing
has counted the success of an earlier request. -/
theorem closes_on_probes (opts : CircuitBreakerOptions) (calls : List ClientCall) :
    (Meets step OwnSuccess (fresh opts) calls →
      Along step (ClosedByProbes opts.clamp.consecutiveSuccessesToClose.toNat) (fresh opts) calls) ∧
    (Along step (ClosedByProbes opts.clamp.consecutiveSuccessesToClose.toNat) (fresh opts) calls ↔
      Along step ClosedWithoutStale (fresh opts) calls) := by
  have characterized : Along step
      (ClosedByProbes opts.clamp.consecutiveSuccessesToClose.toNat) (fresh opts) calls ↔
      Along step ClosedWithoutStale (fresh opts) calls := by
    apply along_congr step (fun clients => clients.breaker.opts = opts.clamp ∧ Counted clients)
    · rintro clients call next ⟨same, counted⟩ taken
      exact ⟨(step_opts taken).trans same, counted.step taken⟩
    · rintro clients call next ⟨same, counted⟩ taken
      rw [← same]
      exact closedByProbes_iff counted taken
    · exact ⟨rfl, fresh_counted opts⟩
  refine ⟨fun own => characterized.mpr ?_, characterized⟩
  exact along_of_invariant step OwnSuccess Unmixed
    (fun _ _ _ unmixed own taken => unmixed.step own taken)
    ⟨fresh_counted opts, fun half => by cases half⟩ ClosedWithoutStale
    (fun _ _ _ unmixed own taken half closed => unmixed.closes own taken half closed) own

/-- A slow caller reports its success while the breaker is open, and two probes close it. -/
theorem closes_on_probes_alone :
    ∃ opened clients next,
      run step (fresh eagerOptions) [.request 0, .request 0, .failure 0 0] = some opened ∧
      opened.breaker.state = .open ∧
      run step opened [.success 1, .request 0, .success 2, .request 0] = some clients ∧
      clients.breaker.state = .halfOpen ∧ clients.step (.success 3) = some next ∧
      next.breaker.state = .closed ∧
      Along step (ClosedByProbes eagerOptions.clamp.consecutiveSuccessesToClose.toNat)
        (fresh eagerOptions) [.request 0, .request 0, .failure 0 0, .success 1, .request 0,
          .success 2, .request 0, .success 3] :=
  ⟨_, _, _, rfl, rfl, rfl, rfl, rfl, rfl, (closes_on_probes eagerOptions [.request 0, .request 0,
    .failure 0 0, .success 1, .request 0, .success 2, .request 0, .success 3]).1 (by decide)⟩

/-- A breaker that two slow callers close: neither success is a probe's. -/
theorem slow_successes_close :
    ∃ clients next,
      run step (fresh eagerOptions)
        [.request 0, .request 0, .request 0, .failure 2 0, .request 0, .success 0] =
          some clients ∧
      clients.step (.success 1) = some next ∧
      clients.breaker.state = .halfOpen ∧ next.breaker.state = .closed ∧
      next.probeSuccesses < eagerOptions.clamp.consecutiveSuccessesToClose.toNat :=
  ⟨_, _, rfl, rfl, rfl, rfl, by decide⟩

end Chmicro.Resilience.Clients
