import Chmicro.HttpClient

set_option autoImplicit false

namespace Chmicro.Http.HttpClient

open EventLoop

/-- No failed wait of the timer is queued. The timer is waiting, or its expiry is queued, or its
handler has set `timedOut`. -/
structure TimerKept (loop : ClientLoop) : Prop where
  genuine : ∀ ec, .timer (some ec) ∉ loop.ready
  kept : (∃ expiresAfter, .timer expiresAfter ∈ loop.pending) ∨ .timer none ∈ loop.ready ∨
    loop.user.timedOut = true

/-- A handler other than the timer's only adds operations. -/
theorem handler_grows {completion : ClientCompletion} (other : ∀ ec, completion ≠ .timer ec)
    (loop : ClientLoop) :
    (∀ op ∈ loop.pending, op ∈ (handler completion loop).pending) ∧
      (handler completion loop).ready = loop.ready ∧
      (handler completion loop).user.timedOut = loop.user.timedOut := by
  rcases handler_cases completion loop with
    ⟨expires, -⟩ | ⟨-, op, started⟩ | ⟨-, pending, ready, timedOut⟩
  · exact (other none expires).elim
  · rw [started]
    exact ⟨fun _ member => Loop.mem_start_pending.mpr (Or.inl member), rfl, rfl⟩
  · rw [pending, ready, timedOut]
    exact ⟨fun _ member => member, rfl, rfl⟩

/-- Cancelling the stream never queues a failed timer. -/
theorem timer_not_aborted {loop : ClientLoop} (ec : ErrorCode)
    (absent : .timer (some ec) ∉ loop.ready) :
    .timer (some ec) ∉ (loop.cancel onStream aborted).ready := by
  intro member
  rcases List.mem_append.mp member with queued | cancelled
  · exact absent queued
  · obtain ⟨op, selected, same⟩ := List.mem_map.mp cancelled
    have stream : onStream op = true := (List.mem_filter.mp selected).2
    cases op <;> simp_all [onStream, aborted]

theorem start_timerKept (host port target : String) (timeout : Int) :
    TimerKept (start host port target timeout) where
  genuine := fun ec member => by cases member
  kept := Or.inl ⟨timeout, by simp [start]⟩

theorem TimerKept.dispatch {loop : ClientLoop} {completion : ClientCompletion}
    {rest : List ClientCompletion} (timer : TimerKept loop)
    (next : loop.ready = completion :: rest) :
    TimerKept (handler completion { loop with ready := rest }) := by
  have genuine : ∀ ec, .timer (some ec) ∉ rest := by
    intro ec member
    exact timer.genuine ec (next ▸ List.mem_cons_of_mem _ member)
  by_cases isTimer : ∃ ec, completion = .timer ec
  · obtain ⟨ec, rfl⟩ := isTimer
    cases ec with
    | some ec => exact (timer.genuine ec (by simp [next])).elim
    | none => exact ⟨fun ec => timer_not_aborted ec (genuine ec), Or.inr (Or.inr rfl)⟩
  · obtain ⟨pending, ready, timedOut⟩ :=
      handler_grows (fun ec same => isTimer ⟨ec, same⟩) { loop with ready := rest }
    refine ⟨by rw [ready]; exact genuine, ?_⟩
    rw [ready, timedOut]
    rcases timer.kept with ⟨expiresAfter, waiting⟩ | queued | expired
    · exact Or.inl ⟨expiresAfter, pending _ waiting⟩
    · rw [next] at queued
      rcases List.mem_cons.mp queued with same | later
      · exact (isTimer ⟨none, same.symm⟩).elim
      · exact Or.inr (Or.inl later)
    · exact Or.inr (Or.inr expired)

theorem TimerKept.complete {loop : ClientLoop} {completion : ClientCompletion}
    (timer : TimerKept loop) (allowed : possible completion) :
    TimerKept { loop with
      pending := loop.pending.eraseP (answers completion)
      ready := loop.ready ++ [completion] } := by
  constructor
  · intro ec member
    rcases List.mem_append.mp member with queued | new
    · exact timer.genuine ec queued
    · rw [← List.mem_singleton.mp new] at allowed
      cases allowed
  · rcases timer.kept with ⟨expiresAfter, waiting⟩ | queued | expired
    · by_cases isTimer : answers completion (.timer expiresAfter)
      · refine Or.inr (Or.inl (List.mem_append_right _ ?_))
        cases completion with
        | timer ec =>
            cases ec with
            | none => exact List.mem_singleton_self _
            | some ec => cases allowed
        | _ => cases isTimer
      · exact Or.inl ⟨expiresAfter, (List.mem_eraseP_of_neg isTimer).mpr waiting⟩
    · exact Or.inr (Or.inl (List.mem_append_left _ queued))
    · exact Or.inr (Or.inr expired)

theorem TimerKept.step {loop after : ClientLoop} {event : ClientEvent} (timer : TimerKept loop)
    (taken : program.step loop event = some after) : TimerKept after := by
  cases Program.step_moves taken with
  | completes completion allowed awaited => exact timer.complete allowed
  | dispatches completion rest next => exact timer.dispatch next

/-- Every call that returns has waited for its timer, and reports a timeout. -/
theorem get_times_out {host port target : String} {timeout : Int} {events : List ClientEvent}
    {result : Result HttpClientResponse} (gets : Gets host port target timeout events result) :
    result = .error { code := .timeout, message := "http client timeout" } := by
  obtain ⟨loop, reached, ⟨noPending, noReady⟩, rfl⟩ := gets
  have timer : TimerKept loop :=
    Transition.invariant_always program.step TimerKept (fun _ _ _ timer taken => timer.step taken)
      (start_timerKept host port target timeout) reached
  have expired : loop.user.timedOut = true := by
    rcases timer.kept with ⟨expiresAfter, waiting⟩ | queued | expired
    · simp [noPending] at waiting
    · simp [noReady] at queued
    · exact expired
  simp only [outcome, expired, ↓reduceIte]

/- What happened in the exchange, read off the events of the loop. -/

def Expires (event : ClientEvent) : Prop := event = .complete (.timer none)

def Receives (resp : ClientMessage) (event : ClientEvent) : Prop :=
  event = .complete (.read (.ok resp))

def Fails : ClientEvent → Prop
  | .complete (.resolve (.error _)) => True
  | .complete (.connect (some _)) => True
  | .complete (.write (some _)) => True
  | .complete (.read (.error _)) => True
  | _ => False

/-- The exchange is finished by the response or by the failure of one of its operations. -/
def Finishes (event : ClientEvent) : Prop :=
  Fails event ∨ ∃ resp, Receives resp event

/-- The result says what happened, with the expiry of the timer as the deadline. -/
structure TrueOutcome (events : List ClientEvent) (result : Result HttpClientResponse) : Prop where
  response : ∀ resp, Before (Receives resp) Expires events → result = .ok (received resp)
  failure : Before Fails Expires events →
    ∃ status, result = .error status ∧ status.code = .unavailable
  timeout : ∀ status, result = .error status → status.code = .timeout →
    Before Expires Finishes events

theorem finishes_not_expires (event : ClientEvent) (finishes : Finishes event) :
    ¬ Expires event := by
  rintro rfl
  rcases finishes with fails | ⟨resp, receives⟩
  · exact fails
  · cases receives

/-- `Get` tells the truth exactly about the calls whose timer expires first. -/
theorem get_true_iff_expired (host port target : String) (timeout : Int)
    (events : List ClientEvent) (result : Result HttpClientResponse)
    (gets : Gets host port target timeout events result) :
    TrueOutcome events result ↔ Before Expires Finishes events := by
  have timedOut := get_times_out gets
  constructor
  · intro truth
    exact truth.timeout _ timedOut rfl
  · intro expired
    have notFirst : ¬ Before Finishes Expires events :=
      expired.asymm fun event expires finishes => finishes_not_expires event finishes expires
    refine ⟨fun resp receives => ?_, fun fails => ?_, fun _ _ _ => expired⟩
    · exact (notFirst (receives.mono fun event same => Or.inr ⟨resp, same⟩)).elim
    · exact (notFirst (fails.mono fun event same => Or.inl same)).elim

/-- An exchange that succeeds in every operation. Only then does the timer expire. -/
def quickExchange : List ClientEvent :=
  [.complete (.resolve (.ok ["127.0.0.1:8086"])), .dispatch, .complete (.connect none), .dispatch,
    .complete (.write none), .dispatch, .complete (.read (.ok { body := "ok" })), .dispatch,
    .complete (.timer none), .dispatch]

/-- The response has arrived before the timer expires, and the call reports a timeout. -/
theorem quick_exchange_times_out :
    Gets "127.0.0.1" "8086" "/health" 1000 quickExchange
        (.error { code := .timeout, message := "http client timeout" }) ∧
      Before (Receives { body := "ok" }) Expires quickExchange := by
  refine ⟨⟨_, rfl, ⟨rfl, rfl⟩, rfl⟩, quickExchange.take 6, _, [.dispatch, .complete (.timer none),
    .dispatch], rfl, rfl, ?_⟩
  simp [quickExchange, Expires]

/-- A call whose server never answers. -/
def silentServer : List ClientEvent :=
  [.complete (.resolve (.ok ["127.0.0.1:8086"])), .dispatch, .complete (.timer none), .dispatch,
    .dispatch]

theorem get_true_of_silent_server :
    TrueOutcome silentServer (.error { code := .timeout, message := "http client timeout" }) ↔
      Before Expires Finishes silentServer :=
  get_true_iff_expired "127.0.0.1" "8086" "/health" 1000 silentServer _
    ⟨_, rfl, ⟨rfl, rfl⟩, rfl⟩

end Chmicro.Http.HttpClient
