import Mathlib
import Chmicro.LoadSession

set_option autoImplicit false

namespace Chmicro.Loadgen

open EventLoop

/-- The operation carries the request itself, and does not only time it. -/
def SessionOp.serves (request : Nat) : SessionOp → Bool
  | .write other _ => other = request
  | .read other => other = request
  | _ => false

def SessionCompletion.serves (request : Nat) : SessionCompletion → Bool
  | .write other _ => other = request
  | .read other _ => other = request
  | _ => false

namespace LoadSession

variable {request : Nat}

theorem serves_aborted (op : SessionOp) : (aborted op).serves request = op.serves request := by
  cases op <;> rfl

theorem serves_of_answers {completion : SessionCompletion} (op : SessionOp)
    (answered : answers completion op) : completion.serves request = op.serves request := by
  cases completion with
  | write first failed =>
      cases op with
      | write other req =>
          obtain rfl : first = other := of_decide_eq_true answered
          rfl
      | _ => cases answered
  | read first received =>
      cases op with
      | read other =>
          obtain rfl : first = other := of_decide_eq_true answered
          rfl
      | _ => cases answered
  | resolve results => cases op <;> first | rfl | cases answered
  | connect failed => cases op <;> first | rfl | cases answered
  | timeout other failed => cases op <;> first | rfl | cases answered
  | reconnect failed => cases op <;> first | rfl | cases answered

/-- The operations and completions that will record the request, and the records it has. -/
def tally (request : Nat) (loop : SessionLoop) : Nat :=
  EventPool.count (SessionOp.serves request) (SessionCompletion.serves request) loop +
    recorded request loop

/-- The tally grows by one when the request is started, and else by the extra. -/
structure Adds (request extra : Nat) (before after : SessionLoop) : Prop where
  grows : before.user.started ≤ after.user.started
  tally : tally request after = tally request before + extra +
    if before.user.started ≤ request ∧ request < after.user.started then 1 else 0

section Parts

variable {extra more : Nat} {before between after : SessionLoop} (loop : SessionLoop)

theorem Adds.trans (first : Adds request extra before between)
    (second : Adds request more between after) : Adds request (extra + more) before after := by
  have start := first.grows
  have later := second.grows
  refine ⟨le_trans start later, ?_⟩
  rw [second.tally, first.tally]
  split_ifs <;> omega

/-- Nothing is started, and the tally is known. -/
theorem Adds.of_started (started : after.user.started = before.user.started)
    (same : LoadSession.tally request after = LoadSession.tally request before + extra) :
    Adds request extra before after := by
  refine ⟨le_of_eq started.symm, ?_⟩
  rw [same, started]
  split_ifs <;> omega

theorem adds_record (about : Option Nat) (call : Record) :
    Adds request (if about = some request then 1 else 0) loop (record loop about call) := by
  have started : (record loop about call).user.started = loop.user.started := rfl
  apply Adds.of_started started
  have logged : recorded request (record loop about call) =
      recorded request loop + if about = some request then 1 else 0 := by
    rw [recorded, recorded, record, List.countP_append, List.countP_singleton]
    simp only [decide_eq_true_eq]
  rw [tally, logged, ← Nat.add_assoc]
  rfl

theorem adds_cancel (selected : SessionOp → Bool) :
    Adds request 0 loop (loop.cancel selected aborted) := by
  have started : (loop.cancel selected aborted).user.started = loop.user.started := rfl
  apply Adds.of_started started
  rw [tally, EventPool.count_cancel _ _ loop selected serves_aborted]
  rfl

theorem adds_close : Adds request 0 loop (close loop) := adds_cancel loop onSocket

theorem adds_cancelTimer : Adds request 0 loop (cancelTimer loop) := adds_cancel loop onTimer

theorem adds_start (op : SessionOp) :
    Adds request (if op.serves request then 1 else 0) loop (loop.start op) := by
  have started : (loop.start op).user.started = loop.user.started := rfl
  apply Adds.of_started started
  rw [tally, EventPool.count_start, Nat.add_right_comm]
  rfl

theorem adds_start_other {op : SessionOp} (other : op.serves request = false) :
    Adds request 0 loop (loop.start op) := by
  have started : Adds request _ loop (loop.start op) := adds_start loop op
  rw [other] at started
  exact started

theorem adds_resolve (input : Readings) : Adds request 0 loop (resolve input loop) := by
  unfold resolve
  split
  · exact Adds.of_started rfl rfl
  · exact adds_start_other loop rfl

theorem adds_reconnectSoon (input : Readings) : Adds request 0 loop (reconnectSoon input loop) := by
  unfold reconnectSoon
  dsimp only
  split
  · exact adds_close loop
  · exact ((adds_close loop).trans (adds_cancelTimer _)).trans (adds_start_other _ rfl)

/-- The write of a new request is the one that adds to its tally. -/
theorem adds_doRequest (input : Readings) : Adds request 0 loop (doRequest input loop) := by
  unfold doRequest
  split
  · exact adds_close loop
  · dsimp only
    let fresh : SessionLoop :=
      { loop with user := { loop.user with
        startNs := input.startNs
        started := loop.user.started + 1 } }
    let timer : SessionOp := .timeout loop.user.started loop.user.opt.timeoutMs
    have other : timer.serves request = false := rfl
    have timed := (adds_cancelTimer fresh).trans (adds_start_other (cancelTimer fresh) other)
    have total := (timed.trans (adds_start _ (.write loop.user.started loop.user.req))).tally
    have none_ : ¬ (loop.user.started + 1 ≤ request ∧ request < loop.user.started + 1) := by
      omega
    refine ⟨Nat.le_succ _, total.trans ?_⟩
    show LoadSession.tally request loop +
        (0 + 0 + if decide (loop.user.started = request) = true then 1 else 0) +
        (if loop.user.started + 1 ≤ request ∧ request < loop.user.started + 1 then 1 else 0) =
      LoadSession.tally request loop + 0 +
        if loop.user.started ≤ request ∧ request < loop.user.started + 1 then 1 else 0
    rw [if_neg none_]
    simp only [decide_eq_true_eq]
    split_ifs <;> omega

end Parts

section Handlers

variable {extra : Nat} (loop : SessionLoop) (other : Nat) (input : Readings)

theorem adds_recordErr : Adds request 0 loop (record loop none .err) := by
  have added : Adds request _ loop (record loop none .err) := adds_record loop none .err
  rw [if_neg (by simp)] at added
  exact added

theorem adds_recordOf (call : Record) :
    Adds request (if other = request then 1 else 0) loop (record loop (some other) call) := by
  have added : Adds request _ loop (record loop (some other) call) :=
    adds_record loop (some other) call
  simp only [Option.some.injEq] at added
  exact added

theorem adds_onResolve (results : Option (List String)) :
    Adds request 0 loop (onResolve results input loop) := by
  cases results with
  | none => exact (adds_recordErr loop).trans (adds_reconnectSoon _ input)
  | some results => exact adds_start_other loop rfl

theorem adds_onConnect (failed : Bool) : Adds request 0 loop (onConnect failed input loop) := by
  cases failed with
  | true => exact (adds_recordErr loop).trans (adds_reconnectSoon _ input)
  | false =>
      let req : LoadRequest :=
        { target := loop.user.opt.target
          host := loop.user.opt.host
          keepAlive := loop.user.opt.keepalive }
      have built : Adds request 0 loop { loop with user := { loop.user with req } } :=
        Adds.of_started rfl rfl
      exact built.trans (adds_doRequest _ input)

theorem adds_onWrite (failed : Bool) :
    Adds request (if other = request then 1 else 0) loop (onWrite other failed input loop) := by
  cases failed with
  | true =>
      have logged : Adds request _ loop (record (cancelTimer loop) (some other) .err) :=
        (adds_cancelTimer loop).trans (adds_recordOf _ other .err)
      rw [Nat.zero_add] at logged
      exact logged.trans (adds_reconnectSoon _ input)
  | false =>
      have started : Adds request _ loop (loop.start (.read other)) := adds_start loop (.read other)
      simp only [SessionOp.serves, decide_eq_true_eq] at started
      exact started

theorem adds_onRead (received : Option Received) :
    Adds request (if other = request then 1 else 0) loop (onRead other received input loop) := by
  have logged (call : Record) : Adds request _ loop (record (cancelTimer loop) (some other) call) :=
    (adds_cancelTimer loop).trans (adds_recordOf _ other call)
  simp only [Nat.zero_add] at logged
  cases received with
  | none => exact (logged .err).trans (adds_reconnectSoon _ input)
  | some response =>
      have ends : ∃ call, onRead other (some response) input loop =
          reconnectSoon input (record (cancelTimer loop) (some other) call) ∨
        onRead other (some response) input loop =
          doRequest input (record (cancelTimer loop) (some other) call) := by
        unfold onRead
        dsimp only
        split
        · exact ⟨_, .inl rfl⟩
        · exact ⟨_, .inr rfl⟩
      obtain ⟨call, same | same⟩ := ends
      · rw [same]
        exact (logged call).trans (adds_reconnectSoon _ input)
      · rw [same]
        exact (logged call).trans (adds_doRequest _ input)

theorem adds_onTimeout (aborted : Bool) :
    Adds request (if aborted = false ∧ other = request then 1 else 0) loop
      (onTimeout other aborted loop) := by
  cases aborted with
  | true => exact Adds.of_started rfl (by simp [onTimeout])
  | false =>
      have logged : Adds request _ loop (close (record loop (some other) .err)) :=
        (adds_recordOf loop other .err).trans (adds_close _)
      simpa [onTimeout] using logged

theorem adds_onReconnectTimer (aborted : Bool) :
    Adds request 0 loop (onReconnectTimer aborted input loop) := by
  cases aborted with
  | true => exact Adds.of_started rfl rfl
  | false => exact adds_resolve loop input

/-- A handler hands on what its completion stood for. Only an expired timer adds to it. -/
theorem adds_handler (completion : SessionCompletion) :
    Adds request
      ((if completion.serves request then 1 else 0) +
        if completion = .timeout request false then 1 else 0)
      loop (handler completion input loop) := by
  cases completion with
  | resolve results => simpa [handler, SessionCompletion.serves] using adds_onResolve loop input results
  | connect failed => simpa [handler, SessionCompletion.serves] using adds_onConnect loop input failed
  | write other failed =>
      simpa [handler, SessionCompletion.serves] using adds_onWrite loop other input failed
  | read other received =>
      simpa [handler, SessionCompletion.serves] using adds_onRead loop other input received
  | timeout other aborted =>
      simpa [handler, SessionCompletion.serves, and_comm] using adds_onTimeout loop other aborted
  | reconnect aborted =>
      simpa [handler, SessionCompletion.serves] using adds_onReconnectTimer loop input aborted

end Handlers

section Steps

variable {loop after : SessionLoop} {event : EventPool.Event SessionCompletion Readings}

/-- The event runs the handler of the request's timer, which has expired. -/
def Expires (request : Nat) (loop : SessionLoop) :
    EventPool.Event SessionCompletion Readings → Prop
  | .complete _ => False
  | .dispatch index _ => loop.ready[index]? = some (.timeout request false)

instance (request : Nat) (loop : SessionLoop)
    (event : EventPool.Event SessionCompletion Readings) :
    Decidable (Expires request loop event) :=
  match event with
  | .complete _ => isFalse id
  | .dispatch index _ =>
      inferInstanceAs (Decidable (loop.ready[index]? = some (.timeout request false)))

/-- All that a step does to the tally of a request. -/
theorem adds_step (taken : program.step loop event = some after) :
    Adds request (if Expires request loop event then 1 else 0) loop after := by
  cases EventPool.Program.step_moves taken with
  | completes completion possible awaited =>
      have same := EventPool.count_complete (SessionOp.serves request)
        (SessionCompletion.serves request) loop serves_of_answers awaited
      refine Adds.of_started rfl ?_
      rw [if_neg (show ¬ Expires request loop (.complete completion) from id)]
      exact congrArg (· + recorded request loop) same
  | dispatches index input completion here =>
      let rest : SessionLoop := { loop with ready := loop.ready.eraseIdx index }
      have less := EventPool.count_take (SessionOp.serves request)
        (SessionCompletion.serves request) loop here
      have handled : Adds request _ rest (handler completion input rest) :=
        adds_handler rest input completion
      have expires : Expires request loop (.dispatch index input) ↔
          completion = .timeout request false := by
        rw [Expires, here, Option.some.injEq]
      refine ⟨handled.grows, handled.tally.trans ?_⟩
      have whole : tally request loop =
          tally request rest + if completion.serves request then 1 else 0 := by
        rw [tally, ← less]
        exact Nat.add_right_comm _ _ _
      simp only [expires]
      show tally request rest + _ + _ = tally request loop + _ + _
      rw [whole, ← Nat.add_assoc]
      rfl

end Steps

end LoadSession

end Chmicro.Loadgen
