import Mathlib
import Chmicro.LoadSessionTally
import Chmicro.Transition

set_option autoImplicit false

namespace Chmicro.Loadgen.LoadSession

open EventLoop

section Runs

/-- No request's timer expires at this event. -/
def InTime (loop : SessionLoop) (event : EventPool.Event SessionCompletion Readings) : Prop :=
  ∀ request, ¬ Expires request loop event

instance (loop : SessionLoop) (event : EventPool.Event SessionCompletion Readings) :
    Decidable (InTime loop event) :=
  match event with
  | .complete _ => isTrue fun _ => id
  | .dispatch index _ =>
      match here : loop.ready[index]? with
      | some (.timeout request false) => isFalse fun inTime => inTime request here
      | some (.timeout _ true) | some (.resolve _) | some (.connect _) | some (.write _ _)
      | some (.read _ _) | some (.reconnect _) | none =>
          isTrue fun request expires => by simp [Expires, here] at expires

/-- Each request that was started has one operation, completion or record, and no other has any. -/
def Counted (loop : SessionLoop) : Prop :=
  ∀ request, tally request loop = if request < loop.user.started then 1 else 0

/-- No request that was started is lost. -/
def Covered (loop : SessionLoop) : Prop :=
  ∀ request, request < loop.user.started → 1 ≤ tally request loop

theorem start_counted (opt : Options) (input : Readings) : Counted (start opt input) := by
  intro request
  have fresh : tally request { user := { opt } } = 0 := rfl
  have none_ : (start opt input).user.started = 0 := by
    unfold start resolve
    split
    · rfl
    · rfl
  have added : Adds request 0 { user := { opt } } (start opt input) := adds_resolve _ input
  rw [added.tally, fresh, none_]
  rfl

variable {loop after : SessionLoop} {event : EventPool.Event SessionCompletion Readings}

theorem Counted.step (counted : Counted loop) (inTime : InTime loop event)
    (taken : program.step loop event = some after) : Counted after := by
  intro request
  have added : Adds request _ loop after := adds_step taken
  rw [if_neg (inTime request)] at added
  have grows := added.grows
  rw [added.tally, counted request]
  split_ifs <;> omega

theorem Counted.covered (counted : Counted loop) : Covered loop := by
  intro request started
  rw [counted request, if_pos started]

theorem Covered.step (covered : Covered loop) (taken : program.step loop event = some after) :
    Covered after := by
  intro request started
  have added : Adds request _ loop after := adds_step taken
  rw [added.tally]
  rcases Nat.lt_or_ge request loop.user.started with before | new
  · have one := covered request before
    omega
  · rw [if_pos (show loop.user.started ≤ request ∧ request < after.user.started from ⟨new, started⟩)]
    omega

end Runs

section Known

/-- The request that an operation is about. -/
def about : SessionOp → Option Nat
  | .write request _ | .read request | .timeout request _ => some request
  | _ => none

def aboutCompletion : SessionCompletion → Option Nat
  | .write request _ | .read request _ | .timeout request _ => some request
  | _ => none

/-- Only requests that were started are outstanding or queued. -/
structure Known (loop : SessionLoop) : Prop where
  pending : ∀ op ∈ loop.pending, ∀ request ∈ about op, request < loop.user.started
  ready : ∀ completion ∈ loop.ready, ∀ request ∈ aboutCompletion completion,
    request < loop.user.started

variable {loop : SessionLoop}

theorem about_aborted (op : SessionOp) : aboutCompletion (aborted op) = about op := by
  cases op <;> rfl

theorem about_of_answers {completion : SessionCompletion} {op : SessionOp}
    (answered : answers completion op) : aboutCompletion completion = about op := by
  cases completion <;> cases op <;>
    first
    | rfl
    | cases answered
    | exact congrArg some (of_decide_eq_true answered)

theorem Known.of_started (known : Known loop) {user : SessionState}
    (grows : loop.user.started ≤ user.started) : Known { loop with user } where
  pending op member request about := lt_of_lt_of_le (known.pending op member request about) grows
  ready completion member request about :=
    lt_of_lt_of_le (known.ready completion member request about) grows

theorem Known.start (known : Known loop) {op : SessionOp}
    (new : ∀ request ∈ about op, request < loop.user.started) : Known (loop.start op) where
  pending other member := by
    rcases Loop.mem_start_pending.mp member with old | rfl
    · exact known.pending other old
    · exact new
  ready := known.ready

theorem Known.cancel (known : Known loop) (selected : SessionOp → Bool) :
    Known (loop.cancel selected aborted) where
  pending op member := known.pending op (List.mem_of_mem_filter member)
  ready completion member := by
    rcases List.mem_append.mp member with queued | cancelled
    · exact known.ready completion queued
    · obtain ⟨op, chosen, rfl⟩ := List.mem_map.mp cancelled
      rw [about_aborted]
      exact known.pending op (List.mem_of_mem_filter chosen)

theorem Known.resolve (known : Known loop) (input : Readings) :
    Known (LoadSession.resolve input loop) := by
  unfold LoadSession.resolve
  split
  · exact known
  · exact known.start (by simp [about])

theorem Known.reconnectSoon (known : Known loop) (input : Readings) :
    Known (LoadSession.reconnectSoon input loop) := by
  unfold LoadSession.reconnectSoon
  dsimp only
  split
  · exact known.cancel _
  · exact ((known.cancel _).cancel _).start (by simp [about])

theorem Known.doRequest (known : Known loop) (input : Readings) :
    Known (LoadSession.doRequest input loop) := by
  unfold LoadSession.doRequest
  split
  · exact known.cancel _
  · let user : SessionState :=
      { loop.user with startNs := input.startNs, started := loop.user.started + 1 }
    have fresh : Known { loop with user } := known.of_started (Nat.le_succ _)
    have new : loop.user.started < user.started := Nat.lt_succ_self _
    apply Known.start
    · apply (fresh.cancel _).start
      intro request mentioned
      obtain rfl := Option.some.inj mentioned
      exact new
    · intro request mentioned
      obtain rfl := Option.some.inj mentioned
      exact new

theorem Known.handler (known : Known loop) {completion : SessionCompletion}
    (started : ∀ request ∈ aboutCompletion completion, request < loop.user.started)
    (input : Readings) : Known (LoadSession.handler completion input loop) := by
  have logged (about : Option Nat) (call : Record) : Known (record loop about call) :=
    known.of_started le_rfl
  have loggedLater (about : Option Nat) (call : Record) :
      Known (record (cancelTimer loop) about call) :=
    (known.cancel _).of_started le_rfl
  cases completion with
  | resolve results =>
      cases results with
      | none => exact (logged _ _).reconnectSoon input
      | some results => exact known.start (by simp [about])
  | connect failed =>
      cases failed with
      | true => exact (logged _ _).reconnectSoon input
      | false =>
          apply Known.doRequest
          exact known.of_started le_rfl
  | write request failed =>
      cases failed with
      | true => exact (loggedLater _ _).reconnectSoon input
      | false => exact known.start started
  | read request received =>
      cases received with
      | none => exact (loggedLater _ _).reconnectSoon input
      | some response =>
          show Known (if _ then _ else _)
          split
          · exact (loggedLater _ _).reconnectSoon input
          · exact (loggedLater _ _).doRequest input
  | timeout request aborted =>
      cases aborted with
      | true => exact known
      | false => exact (logged _ _).cancel _
  | reconnect aborted =>
      cases aborted with
      | true => exact known
      | false => exact known.resolve input

theorem Known.step {after : SessionLoop} {event : EventPool.Event SessionCompletion Readings}
    (known : Known loop) (taken : program.step loop event = some after) : Known after := by
  cases EventPool.Program.step_moves taken with
  | completes completion possible awaited =>
      constructor
      · intro op member
        exact known.pending op (List.mem_of_mem_eraseP member)
      · intro other member
        rcases List.mem_append.mp member with queued | new
        · exact known.ready other queued
        · obtain ⟨op, listed, answered⟩ := awaited
          rw [List.mem_singleton.mp new, about_of_answers answered]
          exact known.pending op listed
  | dispatches index input completion here =>
      have taken_ : Known { loop with ready := loop.ready.eraseIdx index } :=
        ⟨known.pending, fun other member => known.ready other (List.mem_of_mem_eraseIdx member)⟩
      exact taken_.handler (known.ready completion (List.mem_of_getElem? here)) input

theorem start_known (opt : Options) (input : Readings) : Known (start opt input) := by
  have fresh : Known { user := { opt } } := ⟨by simp, by simp⟩
  exact fresh.resolve input

end Known

section Defect

variable {loop : SessionLoop} {request index : Nat}

/-- Some way to go on records the request once more. -/
def RecordsAgain (request : Nat) (loop : SessionLoop) : Prop :=
  ∃ more after, Transition.run program.step loop more = some after ∧
    recorded request loop < recorded request after

/-- The stop flag is set. -/
def stopped : Readings := { stop := true }

/-- Once the flag is set, a handler that records does nothing else to the log. -/
theorem RecordsAgain.of_handler {completion : SessionCompletion} {call : Record}
    (here : loop.ready[index]? = some completion)
    (logs : (handler completion stopped { loop with ready := loop.ready.eraseIdx index }).user.log =
      loop.user.log ++ [(some request, call)]) : RecordsAgain request loop := by
  have taken : program.step loop (.dispatch index stopped) =
      some (handler completion stopped { loop with ready := loop.ready.eraseIdx index }) :=
    EventPool.Program.step_dispatch here stopped
  refine ⟨[.dispatch index stopped],
    handler completion stopped { loop with ready := loop.ready.eraseIdx index }, ?_, ?_⟩
  · exact (Transition.run_cons_eq_some program.step).mpr ⟨_, taken, rfl⟩
  · rw [recorded, recorded, logs, List.countP_append, List.countP_singleton, if_pos (by simp)]
    exact Nat.lt_succ_self _

theorem RecordsAgain.of_read {received : Option Received}
    (here : loop.ready[index]? = some (.read request received)) : RecordsAgain request loop := by
  cases received with
  | none =>
      have logs : (handler (.read request none) stopped
          { loop with ready := loop.ready.eraseIdx index }).user.log =
            loop.user.log ++ [(some request, .err)] := rfl
      exact RecordsAgain.of_handler here logs
  | some response =>
      have logs : ∃ call, (handler (.read request (some response)) stopped
          { loop with ready := loop.ready.eraseIdx index }).user.log =
            loop.user.log ++ [(some request, call)] := by
        refine ⟨.ok ((stopped.endNs - loop.user.startNs) / 1000) response.bytesTransferred, ?_⟩
        show SessionState.log (Loop.user (if _ then _ else _)) = _
        split
        · rfl
        · rfl
      obtain ⟨call, logged⟩ := logs
      exact RecordsAgain.of_handler here logged

/-- What a step that leaves the records alone leads to, the step leads to. -/
theorem RecordsAgain.of_step {next : SessionLoop}
    {event : EventPool.Event SessionCompletion Readings}
    (taken : program.step loop event = some next)
    (same : recorded request next = recorded request loop) (again : RecordsAgain request next) :
    RecordsAgain request loop := by
  obtain ⟨more, after, reached, grows⟩ := again
  rw [same] at grows
  exact ⟨event :: more, after, (Transition.run_cons_eq_some program.step).mpr
    ⟨next, taken, reached⟩, grows⟩

/-- A read that is outstanding fails at the latest when the peer closes the connection. -/
theorem RecordsAgain.of_reading (reading : .read request ∈ loop.pending) :
    RecordsAgain request loop := by
  have answered : program.answers (.read request none) (.read request) := decide_eq_true rfl
  have failed : program.step loop (.complete (.read request none)) = some
      { loop with
        pending := loop.pending.eraseP (answers (.read request none))
        ready := loop.ready ++ [.read request none] } :=
    EventPool.Program.step_complete rfl reading answered
  have last : (loop.ready ++ [SessionCompletion.read request none])[loop.ready.length]? =
      some (.read request none) := List.getElem?_concat_length
  exact RecordsAgain.of_step failed rfl (RecordsAgain.of_read last)

theorem RecordsAgain.of_completion {completion : SessionCompletion}
    (here : loop.ready[index]? = some completion) (serving : completion.serves request) :
    RecordsAgain request loop := by
  cases completion with
  | write other failed =>
      obtain rfl : other = request := of_decide_eq_true serving
      cases failed with
      | true =>
          have logs : (handler (.write other true) stopped
              { loop with ready := loop.ready.eraseIdx index }).user.log =
                loop.user.log ++ [(some other, .err)] := rfl
          exact RecordsAgain.of_handler here logs
      | false =>
          have taken : program.step loop (.dispatch index stopped) = some
              (Loop.start { loop with ready := loop.ready.eraseIdx index } (.read other)) :=
            EventPool.Program.step_dispatch here stopped
          apply RecordsAgain.of_step taken rfl
          apply RecordsAgain.of_reading
          exact Loop.mem_start_pending.mpr (.inr rfl)
  | read other received =>
      obtain rfl : other = request := of_decide_eq_true serving
      exact RecordsAgain.of_read here
  | _ => cases serving

theorem recorded_onTimeout :
    recorded request (onTimeout request false loop) = recorded request loop + 1 := by
  show (loop.user.log ++ [(some request, Record.err)]).countP _ = _
  rw [List.countP_append, List.countP_singleton, if_pos (by simp)]
  rfl

/-- The timeout closes the socket, so that whatever carries the request is queued. -/
theorem RecordsAgain.of_timeout
    (carried : 1 ≤ EventPool.count (SessionOp.serves request) (SessionCompletion.serves request)
      loop) : RecordsAgain request (onTimeout request false loop) := by
  have closed := EventPool.count_cancel (SessionOp.serves request)
    (SessionCompletion.serves request) (record loop (some request) .err) onSocket serves_aborted
  have outstanding := le_of_le_of_eq carried closed.symm
  have idle : (close (record loop (some request) .err)).pending.countP
      (SessionOp.serves request) = 0 := by
    apply List.countP_eq_zero.mpr
    intro op member carries
    have kept := (List.mem_filter.mp member).2
    cases op with
    | write other req => exact absurd kept (by simp [onSocket])
    | read other => exact absurd kept (by simp [onSocket])
    | _ => cases carries
  have queued : 1 ≤ (close (record loop (some request) .err)).ready.countP
      (SessionCompletion.serves request) := by
    rw [EventPool.count, show ((record loop (some request) .err).cancel onSocket aborted) =
      close (record loop (some request) .err) from rfl, idle, Nat.zero_add] at outstanding
    exact outstanding
  obtain ⟨completion, member, serving⟩ := List.countP_pos_iff.mp queued
  obtain ⟨index, here⟩ := List.mem_iff_getElem?.mp member
  exact RecordsAgain.of_completion here serving

/-- A timeout that expires is one record, and what it breaks off becomes another. -/
theorem twice_of_timeout (counted : 1 ≤ tally request loop) :
    ∃ more after,
      Transition.run program.step (onTimeout request false loop) more = some after ∧
        2 ≤ recorded request after := by
  have once : recorded request (onTimeout request false loop) = recorded request loop + 1 :=
    recorded_onTimeout
  rcases Nat.eq_zero_or_pos (recorded request loop) with none_ | some_
  · rw [tally, none_] at counted
    obtain ⟨more, after, reached, again⟩ := RecordsAgain.of_timeout counted
    exact ⟨more, after, reached, by omega⟩
  · exact ⟨[], onTimeout request false loop, rfl, by omega⟩

end Defect

section Claim

/-- A request has at most one record in the runs in which no timeout expires, and every timeout
that expires leaves a way to go on to a second record of its request. -/
theorem recorded_once_if_in_time (opt : Options) (input : Readings) :
    (∀ events loop, Transition.Meets program.step InTime (start opt input) events →
      Transition.run program.step (start opt input) events = some loop →
      ∀ request, recorded request loop ≤ 1) ∧
    ∀ events loop, Transition.run program.step (start opt input) events = some loop →
      ∀ request event next, Expires request loop event → program.step loop event = some next →
        ∃ more after, Transition.run program.step next more = some after ∧
          2 ≤ recorded request after := by
  constructor
  · intro events loop inTime reached request
    have counted := Transition.invariant program.step InTime Counted
      (fun _ _ _ counted inTime taken => counted.step inTime taken) (start_counted opt input) inTime
      reached
    have inside : recorded request loop ≤ tally request loop := Nat.le_add_left _ _
    rw [counted request] at inside
    split_ifs at inside <;> omega
  · intro events loop reached request event next expires taken
    have known := Transition.invariant_always program.step Known
      (fun _ _ _ known taken => known.step taken) (start_known opt input) reached
    have covered := Transition.invariant_always program.step Covered
      (fun _ _ _ covered taken => covered.step taken) (start_counted opt input).covered reached
    cases event with
    | complete completion => exact expires.elim
    | dispatch index readings =>
        have here : loop.ready[index]? = some (.timeout request false) := expires
        have started : request < loop.user.started :=
          known.ready _ (List.mem_of_getElem? here) request rfl
        have moved : program.step loop (.dispatch index readings) = some
            (onTimeout request false { loop with ready := loop.ready.eraseIdx index }) :=
          EventPool.Program.step_dispatch here readings
        obtain rfl := Option.some.inj (moved.symm.trans taken)
        apply twice_of_timeout
        have less := EventPool.count_take (SessionOp.serves request)
          (SessionCompletion.serves request) loop here
        have one := covered request started
        rw [tally, ← less] at one
        exact one

/-- A request that is answered in time. -/
def answeredInTime : List (EventPool.Event SessionCompletion Readings) :=
  [.complete (.resolve (some ["127.0.0.1:8087"])), .dispatch 0 {}, .complete (.connect false),
    .dispatch 0 {}, .complete (.write 0 false), .dispatch 0 {},
    .complete (.read 0 (some { bytesTransferred := 120 })), .dispatch 0 { stop := true }]

theorem recorded_once_if_answered : ∃ loop,
    Transition.run program.step (start {} {}) answeredInTime = some loop ∧ recorded 0 loop ≤ 1 :=
  ⟨_, rfl, (recorded_once_if_in_time {} {}).1 answeredInTime _ (by decide) rfl 0⟩

/-- The timer expires while the request is still being written. -/
def expiredWriting : List (EventPool.Event SessionCompletion Readings) :=
  [.complete (.resolve (some ["127.0.0.1:8087"])), .dispatch 0 {}, .complete (.connect false),
    .dispatch 0 {}, .complete (.timeout 0 false), .dispatch 0 {}, .dispatch 0 {}]

/-- The write that the timeout breaks off is recorded, too. -/
theorem timeout_recorded_twice : ∃ loop,
    Transition.run program.step (start {} {}) expiredWriting = some loop ∧ recorded 0 loop = 2 :=
  ⟨_, rfl, by decide⟩

end Claim

end Chmicro.Loadgen.LoadSession
