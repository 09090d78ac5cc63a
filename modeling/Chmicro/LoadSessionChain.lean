import Mathlib
import Chmicro.LoadSession
import Chmicro.Transition

set_option autoImplicit false

namespace Chmicro.Loadgen

open EventLoop

/-- The operation is the session's own next step, and does not only time a request. -/
def SessionOp.advances : SessionOp → Bool
  | .timeout _ _ => false
  | _ => true

def SessionCompletion.advances : SessionCompletion → Bool
  | .timeout _ _ => false
  | _ => true

namespace LoadSession

/-- The steps of the session that are under way or queued. -/
def links (loop : SessionLoop) : Nat :=
  EventPool.count SessionOp.advances SessionCompletion.advances loop

theorem advances_aborted (op : SessionOp) : (aborted op).advances = op.advances := by
  cases op <;> rfl

theorem advances_of_answers {completion : SessionCompletion} (op : SessionOp)
    (answered : answers completion op) : completion.advances = op.advances := by
  cases completion <;> cases op <;> first | rfl | cases answered

/-- So many steps are under way, and no wait before a reconnect has been cut short. -/
structure Chain (count : Nat) (loop : SessionLoop) : Prop where
  links : links loop = count
  waits : .reconnect true ∉ loop.ready

section Parts

variable {count : Nat} {loop : SessionLoop}

theorem Chain.user (chain : Chain count loop) (user : SessionState) :
    Chain count { loop with user } :=
  ⟨chain.links, chain.waits⟩

theorem Chain.record (chain : Chain count loop) (request : Option Nat) (call : Record) :
    Chain count (record loop request call) :=
  chain.user _

theorem links_start (loop : SessionLoop) (op : SessionOp) :
    links (loop.start op) = links loop + if op.advances then 1 else 0 :=
  EventPool.count_start _ _ loop op

theorem Chain.start (chain : Chain count loop) {op : SessionOp} (advances : op.advances) :
    Chain (count + 1) (loop.start op) := by
  refine ⟨?_, chain.waits⟩
  rw [links_start, if_pos advances, chain.links]

theorem Chain.startTimeout (chain : Chain count loop) (request : Nat) (afterMs : Int) :
    Chain count (loop.start (.timeout request afterMs)) := by
  refine ⟨?_, chain.waits⟩
  rw [links_start, if_neg (by simp [SessionOp.advances]), chain.links, Nat.add_zero]

theorem links_cancel (loop : SessionLoop) (selected : SessionOp → Bool) :
    links (loop.cancel selected aborted) = links loop :=
  EventPool.count_cancel _ _ loop selected advances_aborted

/-- Closing the socket cuts no wait short. -/
theorem Chain.close (chain : Chain count loop) : Chain count (close loop) := by
  constructor
  · exact (links_cancel loop onSocket).trans chain.links
  · intro member
    rcases List.mem_append.mp member with old | new
    · exact chain.waits old
    · obtain ⟨op, chosen, same⟩ := List.mem_map.mp new
      have socket := (List.mem_filter.mp chosen).2
      cases op with
      | reconnect afterMs => cases socket
      | _ => cases same

/-- The timer is free for the next step when no step is under way. -/
theorem Chain.cancelTimer (chain : Chain 0 loop) : Chain 0 (cancelTimer loop) := by
  constructor
  · exact (links_cancel loop onTimer).trans chain.links
  · intro member
    rcases List.mem_append.mp member with old | new
    · exact chain.waits old
    · obtain ⟨op, chosen, same⟩ := List.mem_map.mp new
      have idle : loop.pending.countP SessionOp.advances = 0 :=
        (Nat.add_eq_zero_iff.mp chain.links).1
      have other := List.countP_eq_zero.mp idle op (List.mem_filter.mp chosen).1
      cases op with
      | reconnect afterMs => exact other rfl
      | _ => cases same

end Parts

/-- The session takes one step next, or it has seen that it is to stop. -/
inductive Goes (input : Readings) (loop : SessionLoop) : Prop where
  | on (chain : Chain 1 loop)
  | ends (stop : input.stop) (chain : Chain 0 loop)

section Handlers

variable {loop : SessionLoop} (chain : Chain 0 loop) (input : Readings)

include chain

theorem goes_resolve : Goes input (resolve input loop) := by
  unfold resolve
  split
  · rename_i stop
    exact .ends stop chain
  · exact .on (chain.start rfl)

theorem goes_reconnectSoon : Goes input (reconnectSoon input loop) := by
  unfold reconnectSoon
  dsimp only
  split
  · rename_i stop
    exact .ends stop chain.close
  · exact .on (chain.close.cancelTimer.start rfl)

theorem goes_doRequest : Goes input (doRequest input loop) := by
  unfold doRequest
  dsimp only
  split
  · rename_i stop
    exact .ends stop chain.close
  · exact .on (((chain.user _).cancelTimer.startTimeout _ _).start rfl)

theorem goes_onRead (request : Nat) (received : Option Received) :
    Goes input (onRead request received input loop) := by
  unfold onRead
  dsimp only
  cases received with
  | none => exact goes_reconnectSoon (chain.cancelTimer.record _ _) input
  | some response =>
      dsimp only
      split
      · exact goes_reconnectSoon (chain.cancelTimer.record _ _) input
      · exact goes_doRequest (chain.cancelTimer.record _ _) input

/-- A step that is handled is followed by one step. -/
theorem goes_handler {completion : SessionCompletion} (advances : completion.advances)
    (whole : completion ≠ .reconnect true) : Goes input (handler completion input loop) := by
  cases completion with
  | timeout request aborted => cases advances
  | resolve results =>
      cases results with
      | none => exact goes_reconnectSoon (chain.record _ _) input
      | some results => exact .on (chain.start rfl)
  | connect failed =>
      cases failed with
      | true => exact goes_reconnectSoon (chain.record _ _) input
      | false => exact goes_doRequest (chain.user _) input
  | write request failed =>
      cases failed with
      | true => exact goes_reconnectSoon (chain.cancelTimer.record _ _) input
      | false => exact .on (chain.start rfl)
  | read request received => exact goes_onRead chain input request received
  | reconnect aborted =>
      cases aborted with
      | true => exact (whole rfl).elim
      | false => exact goes_resolve chain input

end Handlers

/-- A timeout leaves the number of steps as it is. -/
theorem Chain.onTimeout {count : Nat} {loop : SessionLoop} (chain : Chain count loop)
    (request : Nat) (aborted : Bool) : Chain count (onTimeout request aborted loop) := by
  unfold LoadSession.onTimeout
  split
  · exact chain
  · exact (chain.record _ _).close

/-- The event is the handling of something that is told to stop. -/
def Stops : EventPool.Event SessionCompletion Readings → Prop
  | .complete _ => False
  | .dispatch _ input => input.stop

instance : DecidablePred Stops := fun event =>
  match event with
  | .complete _ => isFalse id
  | .dispatch _ input => inferInstanceAs (Decidable (input.stop = true))

section Steps

variable {loop after : SessionLoop} {event : EventPool.Event SessionCompletion Readings}

theorem Chain.completes {count : Nat} (chain : Chain count loop) {completion : SessionCompletion}
    (possible : program.possible completion)
    (awaited : ∃ op ∈ loop.pending, program.answers completion op) :
    Chain count { loop with
      pending := loop.pending.eraseP (program.answers completion)
      ready := loop.ready ++ [completion] } := by
  constructor
  · exact (EventPool.count_complete _ _ loop advances_of_answers awaited).trans chain.links
  · intro member
    rcases List.mem_append.mp member with old | new
    · exact chain.waits old
    · rw [← List.mem_singleton.mp new] at possible
      cases possible

/-- What is left when a completion is taken out of the queue. -/
theorem Chain.take {count index : Nat} {completion : SessionCompletion} (chain : Chain count loop)
    (here : loop.ready[index]? = some completion) :
    ∃ left, Chain left { loop with ready := loop.ready.eraseIdx index } ∧
      left + (if completion.advances then 1 else 0) = count := by
  have less := EventPool.count_take SessionOp.advances SessionCompletion.advances loop here
  refine ⟨_, ⟨rfl, fun member => chain.waits (List.mem_of_mem_eraseIdx member)⟩, ?_⟩
  exact less.trans chain.links

/-- One step under way stays one step, until the session is told to stop. -/
theorem Chain.step (chain : Chain 1 loop) (taken : program.step loop event = some after) :
    Chain 1 after ∨ Stops event ∧ Chain 0 after := by
  cases EventPool.Program.step_moves taken with
  | completes completion possible awaited => exact .inl (chain.completes possible awaited)
  | dispatches index input completion here =>
      obtain ⟨left, rest, counted⟩ := chain.take here
      have whole : completion ≠ .reconnect true := by
        rintro rfl
        exact chain.waits (List.mem_of_getElem? here)
      by_cases advances : completion.advances
      · rw [if_pos advances] at counted
        obtain rfl : left = 0 := by omega
        cases goes_handler rest input advances whole with
        | on one => exact .inl one
        | ends stop ended => exact .inr ⟨stop, ended⟩
      · rw [if_neg advances] at counted
        obtain rfl : left = 1 := by omega
        cases completion with
        | timeout request aborted => exact .inl (rest.onTimeout request aborted)
        | _ => exact (advances rfl).elim

/-- A session that has stopped starts nothing any more. -/
theorem Chain.step_ended (chain : Chain 0 loop) (taken : program.step loop event = some after) :
    Chain 0 after ∧ after.user.started = loop.user.started := by
  cases EventPool.Program.step_moves taken with
  | completes completion possible awaited => exact ⟨chain.completes possible awaited, rfl⟩
  | dispatches index input completion here =>
      obtain ⟨left, rest, counted⟩ := chain.take here
      obtain ⟨rfl, timeout⟩ := Nat.add_eq_zero_iff.mp counted
      cases completion with
      | timeout request aborted =>
          refine ⟨rest.onTimeout request aborted, ?_⟩
          show (LoadSession.onTimeout request aborted _).user.started = _
          cases aborted <;> rfl
      | _ => cases timeout

end Steps

section Runs

theorem goes_start (opt : Options) (input : Readings) : Goes input (start opt input) :=
  goes_resolve ⟨rfl, by simp⟩ input

variable {loop after : SessionLoop} {events : List (EventPool.Event SessionCompletion Readings)}

theorem Goes.chain {input : Readings} (goes : Goes input loop) : Chain 1 loop ∨ Chain 0 loop := by
  cases goes with
  | on chain => exact .inl chain
  | ends stop chain => exact .inr chain

theorem Chain.run_ended (chain : Chain 0 loop)
    (reached : Transition.run program.step loop events = some after) :
    Chain 0 after ∧ after.user.started = loop.user.started := by
  refine Transition.invariant_always program.step
    (fun later => Chain 0 later ∧ later.user.started = loop.user.started) ?_ ⟨chain, rfl⟩ reached
  intro before event next kept taken
  obtain ⟨ended, same⟩ := kept.1.step_ended taken
  exact ⟨ended, same.trans kept.2⟩

theorem Chain.run_on (chain : Chain 1 loop) (unstopped : ∀ event ∈ events, ¬ Stops event)
    (reached : Transition.run program.step loop events = some after) : Chain 1 after := by
  refine Transition.invariant program.step (fun _ event => ¬ Stops event) (Chain 1) ?_ chain
    (Transition.Meets.of_mem program.step unstopped loop) reached
  intro before event next one told taken
  rcases one.step taken with still | ⟨stops, -⟩
  · exact still
  · exact (told stops).elim

/-- However its operations complete and its handlers are scheduled, a session takes one step at
a time, and its wait before a reconnect is never cut short. It takes the next step as long as no
handler is told to stop, and it starts nothing any more once it has stopped. -/
theorem one_step_at_a_time (opt : Options) (input : Readings)
    (events : List (EventPool.Event SessionCompletion Readings)) (loop : SessionLoop)
    (reached : Transition.run program.step (start opt input) events = some loop) :
    links loop ≤ 1 ∧ .reconnect true ∉ loop.ready ∧
    (input.stop = false → (∀ event ∈ events, ¬ Stops event) → links loop = 1) ∧
    (links loop = 0 → ∀ more after, Transition.run program.step loop more = some after →
      links after = 0 ∧ after.user.started = loop.user.started) := by
  have chain : Chain 1 loop ∨ Chain 0 loop := by
    refine Transition.invariant_always program.step (fun loop => Chain 1 loop ∨ Chain 0 loop) ?_
      (goes_start opt input).chain reached
    intro before event next kept taken
    rcases kept with one | none_
    · rcases one.step taken with still | ⟨-, ended⟩
      · exact .inl still
      · exact .inr ended
    · exact .inr (none_.step_ended taken).1
  refine ⟨?_, ?_, fun go unstopped => ?_, fun none_ more after later => ?_⟩
  · rcases chain with one | ended
    · exact le_of_eq one.links
    · exact le_of_eq_of_le ended.links (Nat.zero_le 1)
  · exact chain.elim Chain.waits Chain.waits
  · cases goes_start opt input with
    | on one => exact (one.run_on unstopped reached).links
    | ends stop ended => exact absurd (go.symm.trans stop) Bool.false_ne_true
  · have ended : Chain 0 loop := ⟨none_, chain.elim Chain.waits Chain.waits⟩
    obtain ⟨still, same⟩ := ended.run_ended later
    exact ⟨still.links, same⟩

/-- A request that times out and is started again. -/
def reconnects : List (EventPool.Event SessionCompletion Readings) :=
  [.complete (.resolve (some ["127.0.0.1:8087"])), .dispatch 0 {}, .complete (.connect false),
    .dispatch 0 {}, .complete (.timeout 0 false), .dispatch 0 {}, .dispatch 0 {},
    .complete (.reconnect false), .dispatch 0 {}]

theorem one_step_at_a_time_reconnects : ∃ loop,
    Transition.run program.step (start {} {}) reconnects = some loop ∧ links loop = 1 :=
  ⟨_, rfl, (one_step_at_a_time {} {} reconnects _ rfl).2.2.1 rfl (by decide)⟩

end Runs

end LoadSession

end Chmicro.Loadgen
