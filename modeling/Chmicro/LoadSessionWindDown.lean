import Mathlib
import Chmicro.LoadSessionChain

set_option autoImplicit false

namespace Chmicro.Loadgen.LoadSession

open EventLoop

/-- `ShouldStop()` says so. -/
def Stopped (input : Readings) : Prop := input.stop = true

section Spending

/-- The events that an operation may still take once the session is to stop, with those of the
operation that its success leads to. -/
def toCome : SessionOp → Nat
  | .resolve _ _ => 4
  | .write _ _ => 4
  | _ => 2

def toHandle : SessionCompletion → Nat
  | .resolve (some _) => 3
  | .write _ false => 3
  | _ => 1

theorem toHandle_pos (completion : SessionCompletion) : 0 < toHandle completion := by
  unfold toHandle
  split <;> omega

theorem toHandle_aborted (op : SessionOp) : toHandle (aborted op) ≤ toCome op := by
  cases op <;> simp [aborted, toHandle, toCome]

theorem toHandle_lt_toCome {completion : SessionCompletion} {op : SessionOp}
    (answered : answers completion op) : toHandle completion < toCome op := by
  unfold toHandle
  split
  · cases op with
    | resolve => exact Nat.lt_succ_self 3
    | _ => cases answered
  · cases op with
    | write => exact Nat.lt_succ_self 3
    | _ => cases answered
  · cases op <;> exact Nat.lt_of_lt_of_le (Nat.lt_succ_self 1) (by simp [toCome])

variable (loop : SessionLoop)

theorem weight_close : weight toCome toHandle (close loop) ≤ weight toCome toHandle loop :=
  weight_cancel_le toCome toHandle loop onSocket toHandle_aborted

theorem weight_cancelTimer :
    weight toCome toHandle (cancelTimer loop) ≤ weight toCome toHandle loop :=
  weight_cancel_le toCome toHandle loop onTimer toHandle_aborted

variable {input : Readings} (stopped : Stopped input)

include stopped

theorem reconnectSoon_stopped : reconnectSoon input loop = close loop := if_pos stopped

theorem doRequest_stopped : doRequest input loop = close loop := if_pos stopped

theorem resolve_stopped : resolve input loop = loop := if_pos stopped

/-- What a read that was handled leads to. -/
theorem onRead_stopped (request : Nat) (received : Option Received) :
    ∃ call, onRead request received input loop =
      close (record (cancelTimer loop) (some request) call) := by
  unfold onRead
  dsimp only
  cases received with
  | none => exact ⟨.err, reconnectSoon_stopped _ stopped⟩
  | some response =>
      refine ⟨.ok ((input.endNs - loop.user.startNs) / 1000) response.bytesTransferred, ?_⟩
      dsimp only
      split
      · exact reconnectSoon_stopped _ stopped
      · exact doRequest_stopped _ stopped

/-- A handler leads to a new operation only where a step succeeds that needs another one to end. -/
theorem handler_stopped (completion : SessionCompletion) :
    weight toCome toHandle (handler completion input loop) <
        weight toCome toHandle loop + toHandle completion ∧
      (handler completion input loop).user.started = loop.user.started := by
  have lighter {after : SessionLoop}
      (less : weight toCome toHandle after ≤ weight toCome toHandle loop) :
      weight toCome toHandle after < weight toCome toHandle loop + toHandle completion :=
    Nat.lt_of_le_of_lt less (Nat.lt_add_of_pos_right (toHandle_pos completion))
  have closed := weight_close loop
  have both := (weight_close (cancelTimer loop)).trans (weight_cancelTimer loop)
  cases completion with
  | resolve results =>
      cases results with
      | none =>
          simp only [handler, onResolve, reconnectSoon_stopped _ stopped]
          exact ⟨lighter closed, rfl⟩
      | some results =>
          refine ⟨?_, rfl⟩
          simp only [handler, onResolve, weight_start, toCome, toHandle]
          omega
  | connect failed =>
      cases failed with
      | true =>
          simp only [handler, onConnect, if_true, reconnectSoon_stopped _ stopped]
          exact ⟨lighter closed, rfl⟩
      | false =>
          simp only [handler, onConnect, Bool.false_eq_true, if_false, doRequest_stopped _ stopped]
          exact ⟨lighter closed, rfl⟩
  | write request failed =>
      cases failed with
      | true =>
          simp only [handler, onWrite, if_true, reconnectSoon_stopped _ stopped]
          exact ⟨lighter both, rfl⟩
      | false =>
          refine ⟨?_, rfl⟩
          simp only [handler, onWrite, Bool.false_eq_true, if_false, weight_start, toCome, toHandle]
          omega
  | read request received =>
      obtain ⟨call, ended⟩ := onRead_stopped loop stopped request received
      rw [handler, ended]
      exact ⟨lighter both, rfl⟩
  | timeout request aborted =>
      cases aborted with
      | true => exact ⟨lighter le_rfl, rfl⟩
      | false => exact ⟨lighter closed, rfl⟩
  | reconnect aborted =>
      cases aborted with
      | true => exact ⟨lighter le_rfl, rfl⟩
      | false =>
          have ended : handler (.reconnect false) input loop = loop := resolve_stopped loop stopped
          rw [ended]
          exact ⟨lighter le_rfl, rfl⟩

end Spending

theorem spends : program.Spends Stopped toCome toHandle where
  answers _ _ answered := toHandle_lt_toCome answered
  handler completion _ loop stopped := (handler_stopped loop stopped completion).1

/-- The completion that ends a wait. -/
theorem exists_completion (op : SessionOp) :
    ∃ completion, possible completion ∧ answers completion op := by
  cases op with
  | resolve => exact ⟨.resolve none, rfl, rfl⟩
  | connect => exact ⟨.connect true, rfl, rfl⟩
  | write request => exact ⟨.write request true, rfl, decide_eq_true rfl⟩
  | read request => exact ⟨.read request none, rfl, decide_eq_true rfl⟩
  | timeout request => exact ⟨.timeout request false, rfl, decide_eq_true rfl⟩
  | reconnect => exact ⟨.reconnect false, rfl, rfl⟩

/-- The events of the request timers that are running or were cancelled. -/
def timerEvents (loop : SessionLoop) : Nat :=
  weight (fun op => if op.advances then 0 else 2)
    (fun completion => if completion.advances then 0 else 1)
    loop

/-- One step of the session takes four events at most, and the rest is its timers'. -/
theorem weight_le (loop : SessionLoop) :
    weight toCome toHandle loop ≤ 4 * links loop + timerEvents loop := by
  have pending : ∀ op : SessionOp,
      toCome op ≤ (if op.advances then 4 else 0) + if op.advances then 0 else 2 := by
    intro op
    cases op <;> simp [toCome, SessionOp.advances]
  have ready : ∀ completion : SessionCompletion,
      toHandle completion ≤ (if completion.advances then 4 else 0) +
        if completion.advances then 0 else 1 := by
    intro completion
    unfold toHandle
    split <;> first | exact Nat.le_of_ble_eq_true rfl | skip
    cases completion <;> simp [SessionCompletion.advances]
  have ops := ListSet.sum_map_le_countP SessionOp.advances pending loop.pending
  have completions := ListSet.sum_map_le_countP SessionCompletion.advances ready loop.ready
  rw [weight, timerEvents, weight, links, EventPool.count]
  omega

/-- The event is no handling of something that is not told to stop. -/
abbrev WhileStopped : EventPool.Event SessionCompletion Readings → Prop :=
  EventPool.Event.Reads Stopped

open Transition in
/-- A session that is told to stop winds down, however its operations complete and its handlers
are scheduled. It starts no request, takes four events more besides those of its request timers,
and can always be run until it has nothing to wait for. -/
theorem winds_down (opt : Options) (input : Readings)
    (events : List (EventPool.Event SessionCompletion Readings)) (loop : SessionLoop)
    (reached : run program.step (start opt input) events = some loop)
    (more : List (EventPool.Event SessionCompletion Readings)) (after : SessionLoop)
    (told : ∀ event ∈ more, WhileStopped event) (later : run program.step loop more = some after) :
    more.length ≤ 4 + timerEvents loop ∧ after.user.started = loop.user.started ∧
    ∃ rest final, (∀ event ∈ rest, WhileStopped event) ∧
      run program.step after rest = some final ∧ final.Idle := by
  refine ⟨?_, ?_, ?_⟩
  · have single := (one_step_at_a_time opt input events loop reached).1
    have bounded := spends.length_le told later
    have light := weight_le loop
    omega
  · refine invariant program.step (fun _ event => WhileStopped event)
      (fun now => now.user.started = loop.user.started) ?_ rfl
      (Meets.of_mem program.step told loop) later
    intro before event next same reads taken
    cases EventPool.Program.step_moves taken with
    | completes => exact same
    | dispatches index input completion here => exact (handler_stopped _ reads completion).2.trans same
  · have told : Stopped { stop := true } := rfl
    exact spends.exists_idle told exists_completion after

/-- A request is written when the session is told to stop. Its response is still read. -/
def lastResponse : List (EventPool.Event SessionCompletion Readings) :=
  [.complete (.write 0 false), .dispatch 0 { stop := true },
    .complete (.read 0 (some { bytesTransferred := 90 })), .dispatch 0 { stop := true },
    .dispatch 0 { stop := true }]

theorem winds_down_last_response : ∃ loop after,
    Transition.run program.step (start {} {}) (reconnects.take 4) = some loop ∧
    Transition.run program.step loop lastResponse = some after ∧
    lastResponse.length ≤ 4 + timerEvents loop ∧ after.user.started = 1 := by
  refine ⟨_, _, rfl, rfl, ?_⟩
  have told : ∀ event ∈ lastResponse, WhileStopped event := by
    simp only [lastResponse, List.forall_mem_cons]
    exact ⟨trivial, rfl, trivial, rfl, rfl, by simp⟩
  obtain ⟨few, none_, -⟩ := winds_down {} {} (reconnects.take 4) _ rfl lastResponse _ told rfl
  exact ⟨few, none_⟩

end Chmicro.Loadgen.LoadSession
