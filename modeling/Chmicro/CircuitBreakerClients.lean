import Chmicro.CircuitBreaker
import Chmicro.ListSet
import Chmicro.Transition

set_option autoImplicit false

namespace Chmicro.Resilience

open Transition

inductive Outcome where
  | success
  | failure
  deriving DecidableEq, Repr

/-- A callback, with the number of half-open episodes begun when it arrived. -/
structure Report where
  outcome : Outcome
  episode : Nat
  deriving DecidableEq, Repr

/-- A request the breaker admitted, with the number of half-open episodes begun by then.
The breaker itself keeps neither. -/
structure Request where
  episode : Nat
  report : Option Report := none
  deriving DecidableEq, Repr

/-- The requests a breaker has admitted. A request is known by its position in the order of
admission. -/
structure History where
  episode : Nat := 0
  requests : List Request := []
  deriving DecidableEq

namespace History

/-- A call of `AllowRequest` may begin a half-open episode, and may admit its request. -/
def record (history : History) (entered admitted : Bool) : History :=
  let episode := if entered then history.episode + 1 else history.episode
  { episode
    requests := if admitted then history.requests ++ [{ episode }] else history.requests }

/-- Only an admitted request that has not reported yet makes a callback. -/
def report (history : History) (id : Nat) (outcome : Outcome) : Option History :=
  match history.requests[id]? with
  | some ⟨episode, none⟩ =>
      some { history with
        requests := history.requests.set id ⟨episode, some ⟨outcome, history.episode⟩⟩ }
  | _ => none

/-- Requests admitted since the breaker last entered half-open that have not reported. -/
def outstanding (history : History) : Nat :=
  history.requests.countP fun request =>
    request.episode = history.episode ∧ request.report = none

theorem report_eq_some {history next : History} {id : Nat} {outcome : Outcome}
    (taken : history.report id outcome = some next) :
    ∃ episode, history.requests[id]? = some ⟨episode, none⟩ ∧
      next = { history with
        requests := history.requests.set id ⟨episode, some ⟨outcome, history.episode⟩⟩ } := by
  unfold report at taken
  split at taken
  · rename_i episode awaited
    exact ⟨episode, awaited, (Option.some.inj taken).symm⟩
  · cases taken

theorem outstanding_admitted (requests : List Request) (episode : Nat) :
    1 ≤ outstanding { episode, requests := requests ++ [{ episode }] } := by
  simp [outstanding, List.countP_append]

theorem outstanding_concat (history : History) :
    outstanding { history with
      requests := history.requests ++ [{ episode := history.episode }] } =
      history.outstanding + 1 := by
  simp [outstanding, List.countP_append]

theorem outstanding_report {history : History} {id episode : Nat}
    (awaited : history.requests[id]? = some ⟨episode, none⟩) (report : Report) :
    outstanding { history with
      requests := history.requests.set id ⟨episode, some report⟩ } +
      (if episode = history.episode then 1 else 0) = history.outstanding := by
  simpa [outstanding] using ListSet.countP_set_add
    (fun request => decide (request.episode = history.episode ∧ request.report = none))
    awaited ⟨episode, some report⟩

end History

/-- The breaker together with the history of its clients. -/
structure Clients extends History where
  breaker : CircuitBreaker
  deriving DecidableEq

inductive ClientCall where
  | request (now : Int)
  | success (id : Nat)
  | failure (id : Nat) (now : Int)
  deriving DecidableEq, Repr

namespace Clients

def fresh (opts : CircuitBreakerOptions) : Clients where
  breaker := .new opts

def request (clients : Clients) (now : Int) : Clients :=
  let (admitted, breaker) := clients.breaker.allowRequest now
  let entered := clients.breaker.state ≠ .halfOpen ∧ breaker.state = .halfOpen
  { clients.record entered admitted with breaker }

def callback (clients : Clients) (id : Nat) (outcome : Outcome) (breaker : CircuitBreaker) :
    Option Clients :=
  (clients.report id outcome).map fun history => { history with breaker }

def step (clients : Clients) : ClientCall → Option Clients
  | .request now => some (clients.request now)
  | .success id => clients.callback id .success clients.breaker.onSuccess
  | .failure id now => clients.callback id .failure (clients.breaker.onFailure now)

def successReports (clients : Clients) : Nat :=
  clients.requests.countP fun request => request.report = some ⟨.success, clients.episode⟩

/-- Successes reported in this half-open episode by the requests it admitted. -/
def probeSuccesses (clients : Clients) : Nat :=
  clients.requests.countP fun request =>
    request.report = some ⟨.success, clients.episode⟩ ∧ request.episode = clients.episode

/-- Successes reported in this half-open episode by requests admitted before it. -/
def staleSuccesses (clients : Clients) : Nat :=
  clients.requests.countP fun request =>
    request.report = some ⟨.success, clients.episode⟩ ∧ request.episode ≠ clients.episode

theorem successReports_split (clients : Clients) :
    clients.successReports = clients.probeSuccesses + clients.staleSuccesses := by
  unfold successReports probeSuccesses staleSuccesses
  induction clients.requests with
  | nil => rfl
  | cons request rest ih =>
      simp only [List.countP_cons, ih]
      by_cases reported : request.report = some ⟨.success, clients.episode⟩ <;>
        by_cases own : request.episode = clients.episode <;> simp [reported, own] <;> omega

/-- Every way a step can end in half-open. -/
inductive HalfOpenStep (clients : Clients) : ClientCall → Clients → Prop where
  | refuses (now : Int) (half : clients.breaker.state = .halfOpen)
      (full : clients.breaker.opts.halfOpenMaxInflight ≤ clients.breaker.halfOpenInflight) :
      HalfOpenStep clients (.request now) clients
  | enters (now : Int) (opened : clients.breaker.state = .open) :
      HalfOpenStep clients (.request now)
        { breaker := { clients.breaker with
            state := .halfOpen
            consecutiveFailures := 0
            consecutiveSuccesses := 0
            halfOpenInflight := 1 }
          episode := clients.episode + 1
          requests := clients.requests ++ [{ episode := clients.episode + 1 }] }
  | admits (now : Int) (half : clients.breaker.state = .halfOpen)
      (room : clients.breaker.halfOpenInflight < clients.breaker.opts.halfOpenMaxInflight) :
      HalfOpenStep clients (.request now)
        { clients with
          breaker := { clients.breaker with
            halfOpenInflight := clients.breaker.halfOpenInflight + 1 }
          requests := clients.requests ++ [{ episode := clients.episode }] }
  | counts (id : Nat) (episode : Nat) (half : clients.breaker.state = .halfOpen)
      (few : clients.breaker.consecutiveSuccesses + 1 <
        clients.breaker.opts.consecutiveSuccessesToClose)
      (awaited : clients.requests[id]? = some ⟨episode, none⟩) :
      HalfOpenStep clients (.success id)
        { clients with
          breaker := { clients.breaker.releaseSlot with
            consecutiveSuccesses := clients.breaker.consecutiveSuccesses + 1 }
          requests := clients.requests.set id ⟨episode, some ⟨.success, clients.episode⟩⟩ }

theorem callback_eq_some {clients next : Clients} {id : Nat} {outcome : Outcome}
    {breaker : CircuitBreaker} (taken : clients.callback id outcome breaker = some next) :
    ∃ episode, clients.requests[id]? = some ⟨episode, none⟩ ∧
      next = { clients with
        breaker
        requests := clients.requests.set id ⟨episode, some ⟨outcome, clients.episode⟩⟩ } := by
  obtain ⟨history, reported, rfl⟩ := Option.map_eq_some_iff.mp taken
  obtain ⟨episode, awaited, rfl⟩ := History.report_eq_some reported
  exact ⟨episode, awaited, rfl⟩

theorem request_halfOpenStep {clients : Clients} {now : Int}
    (half : (clients.request now).breaker.state = .halfOpen) :
    HalfOpenStep clients (.request now) (clients.request now) := by
  cases state : clients.breaker.state with
  | closed =>
      simp [request, History.record, CircuitBreaker.allowRequest_closed state, state] at half
  | «open» =>
      by_cases early : now - clients.breaker.openedAt < clients.breaker.opts.openNanos
      · simp [request, History.record, CircuitBreaker.allowRequest_waits state early, state] at half
      · have entered : HalfOpenStep clients _ _ := .enters now state
        simpa [request, History.record, CircuitBreaker.allowRequest_probes state early, state]
          using entered
  | halfOpen =>
      by_cases full : clients.breaker.opts.halfOpenMaxInflight ≤ clients.breaker.halfOpenInflight
      · have refused : HalfOpenStep clients _ _ := .refuses now state full
        simpa [request, History.record, CircuitBreaker.allowRequest_full state full, state]
          using refused
      · have admitted : HalfOpenStep clients _ _ := .admits now state (UInt32.not_le.mp full)
        simpa [request, History.record, CircuitBreaker.allowRequest_admits state full, state]
          using admitted

theorem success_halfOpenStep {clients next : Clients} {id : Nat}
    (taken : clients.step (.success id) = some next) (half : next.breaker.state = .halfOpen) :
    HalfOpenStep clients (.success id) next := by
  obtain ⟨episode, awaited, rfl⟩ := callback_eq_some taken
  cases state : clients.breaker.state with
  | closed => simp [CircuitBreaker.onSuccess_closed state, state] at half
  | «open» => simp [CircuitBreaker.onSuccess_open state, state] at half
  | halfOpen =>
      by_cases enough : clients.breaker.opts.consecutiveSuccessesToClose ≤
          clients.breaker.consecutiveSuccesses + 1
      · simp [CircuitBreaker.onSuccess_closes state enough] at half
      · rw [CircuitBreaker.onSuccess_counts state enough]
        exact .counts id episode state (UInt32.not_le.mp enough) awaited

/-- No failure leaves the breaker in half-open. -/
theorem onFailure_not_halfOpen (breaker : CircuitBreaker) (now : Int) :
    (breaker.onFailure now).state ≠ .halfOpen := by
  cases state : breaker.state with
  | closed =>
      by_cases enough : breaker.opts.consecutiveFailuresToOpen ≤ breaker.consecutiveFailures + 1
      · simp [CircuitBreaker.onFailure_opens state enough]
      · simp [CircuitBreaker.onFailure_counts state enough, state]
  | «open» => simp [CircuitBreaker.onFailure_open state, state]
  | halfOpen => simp [CircuitBreaker.onFailure_reopens state]

theorem step_halfOpen {clients next : Clients} {call : ClientCall}
    (taken : clients.step call = some next) (half : next.breaker.state = .halfOpen) :
    HalfOpenStep clients call next := by
  cases call with
  | request now =>
      cases taken
      exact request_halfOpenStep half
  | success id => exact success_halfOpenStep taken half
  | failure id now =>
      obtain ⟨episode, awaited, rfl⟩ := callback_eq_some taken
      exact (onFailure_not_halfOpen _ _ half).elim

end Clients

end Chmicro.Resilience
