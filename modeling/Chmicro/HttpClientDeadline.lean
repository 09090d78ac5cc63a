import Chmicro.HttpClientOutcome

set_option autoImplicit false

namespace Chmicro.Http.HttpClient

open EventLoop

/-- The operations whose success leads to another one. -/
def leads : ClientOp → Bool
  | .resolve _ _ => true
  | .connect _ => true
  | .write _ => true
  | .timer _ => false
  | .read => false

/-- After the deadline nothing is added to the operations that are outstanding. -/
def StartsNothing (loop : ClientLoop) (_ : ClientEvent) (after : ClientLoop) : Prop :=
  loop.user.timedOut = true → after.pending.Sublist loop.pending

section Handlers

/-- The next handler to run is the timer's. -/
def expiresNext (loop : ClientLoop) : Bool :=
  match loop.ready with
  | .timer none :: _ => true
  | _ => false

/-- The name is resolved, and no operation has succeeded whose handler is yet to run. -/
structure Quiet (loop : ClientLoop) : Prop where
  resolved : ∀ op ∈ loop.pending, leads op → onStream op
  handled : ∀ completion ∈ loop.ready, starts completion = false

/-- The timer's handler runs in quiet states only. -/
def ExpiresQuietly (loop : ClientLoop) : ClientEvent → Prop
  | .complete _ => True
  | .dispatch => expiresNext loop → Quiet loop

theorem starts_aborted (op : ClientOp) : starts (aborted op) = false := by
  cases op <;> rfl

theorem leads_of_answers {completion : ClientCompletion} {op : ClientOp}
    (answered : answers completion op = true) (next : starts completion = true) : leads op = true := by
  cases completion with
  | timer ec => cases next
  | read result => cases next
  | resolve result => cases op <;> first | rfl | cases answered
  | connect ec => cases op <;> first | rfl | cases answered
  | write ec => cases op <;> first | rfl | cases answered

end Handlers

section Deadline

/-- Once the deadline has passed, no outstanding operation leads to another one. -/
structure Final (loop : ClientLoop) : Prop where
  pending : loop.user.timedOut = true → ∀ op ∈ loop.pending, leads op = false
  ready : loop.user.timedOut = true → ∀ completion ∈ loop.ready, starts completion = false

theorem start_final (host port target : String) (timeout : Int) :
    Final (start host port target timeout) where
  pending timedOut := by cases timedOut
  ready timedOut := by cases timedOut

theorem Final.complete {loop : ClientLoop} {completion : ClientCompletion} (final : Final loop)
    (awaited : ∃ op ∈ loop.pending, answers completion op) :
    Final { loop with
      pending := loop.pending.eraseP (answers completion)
      ready := loop.ready ++ [completion] } := by
  constructor
  · intro timedOut op member
    exact final.pending timedOut op (List.mem_of_mem_eraseP member)
  · intro timedOut other member
    rcases List.mem_append.mp member with queued | new
    · exact final.ready timedOut other queued
    · obtain ⟨op, listed, answered⟩ := awaited
      have last := final.pending timedOut op listed
      rw [List.mem_singleton.mp new]
      by_contra next
      rw [leads_of_answers answered (by simpa using next)] at last
      cases last

theorem Final.dispatch {loop : ClientLoop} {completion : ClientCompletion}
    {rest : List ClientCompletion} (final : Final loop) (next : loop.ready = completion :: rest)
    (quiet : completion = .timer none → Quiet loop) :
    Final (handler completion { loop with ready := rest }) := by
  have later : ∀ other ∈ rest, other ∈ loop.ready := by
    intro other member
    rw [next]
    exact List.mem_cons_of_mem _ member
  rcases handler_cases completion { loop with ready := rest } with
    ⟨expires, cancelled⟩ | ⟨leading, op, started⟩ | ⟨_, pending, ready, timedOut⟩
  · have still := quiet expires
    rw [cancelled]
    constructor
    · intro _ op member
      have kept := List.mem_filter.mp member
      by_contra leading
      have stream := still.resolved op kept.1 (by simpa using leading)
      exact absurd kept.2 (by simp [stream])
    · intro _ other member
      rcases List.mem_append.mp member with queued | abort
      · exact still.handled other (later other queued)
      · obtain ⟨op, -, rfl⟩ := List.mem_map.mp abort
        exact starts_aborted op
  · have inTime : loop.user.timedOut ≠ true := by
      intro timedOut
      have done := final.ready timedOut completion (by simp [next])
      rw [leading] at done
      cases done
    rw [started]
    exact ⟨fun timedOut => absurd timedOut inTime, fun timedOut => absurd timedOut inTime⟩
  · constructor
    · rw [pending, timedOut]
      exact final.pending
    · rw [ready, timedOut]
      exact fun expired other member => final.ready expired other (later other member)

/-- In a final state nothing is started. -/
theorem Final.startsNothing {loop after : ClientLoop} {event : ClientEvent} (final : Final loop)
    (taken : program.step loop event = some after) : StartsNothing loop event after := by
  intro timedOut
  cases Program.step_moves taken with
  | completes completion possible awaited => exact List.eraseP_sublist
  | dispatches completion rest next =>
      show (handler completion { loop with ready := rest }).pending.Sublist loop.pending
      rcases handler_cases completion { loop with ready := rest } with
        ⟨-, cancelled⟩ | ⟨leading, -⟩ | ⟨-, pending, -⟩
      · rw [cancelled]
        exact List.filter_sublist
      · have done := final.ready timedOut completion (by simp [next])
        rw [leading] at done
        cases done
      · rw [pending]

theorem Final.step {loop after : ClientLoop} {event : ClientEvent} (final : Final loop)
    (quietly : ExpiresQuietly loop event) (taken : program.step loop event = some after) :
    Final after := by
  cases Program.step_moves taken with
  | completes completion possible awaited => exact final.complete awaited
  | dispatches completion rest next =>
      apply final.dispatch next
      intro expires
      apply quietly
      rw [expiresNext, next, expires]

end Deadline

section Defect

/-- Some way to go on starts an operation after the deadline. -/
def Restarts (loop : ClientLoop) : Prop :=
  ∃ more after, Transition.run program.step loop more = some after ∧
    ¬ Transition.Along program.step StartsNothing loop more

/-- What a step leads to, the step leads to. -/
theorem Restarts.of_step {loop next : ClientLoop} {event : ClientEvent}
    (taken : program.step loop event = some next) (restarts : Restarts next) : Restarts loop := by
  obtain ⟨more, after, reached, fails⟩ := restarts
  have longer := (Transition.run_cons_eq_some program.step).mpr ⟨next, taken, reached⟩
  exact ⟨event :: more, after, longer, fun along => fails (along next taken).2⟩

/-- The handler of a success starts an operation, whatever the flag says. -/
theorem restarts_of_head {loop : ClientLoop} {completion : ClientCompletion}
    {rest : List ClientCompletion} (timedOut : loop.user.timedOut = true)
    (next : loop.ready = completion :: rest) (leading : starts completion = true) :
    Restarts loop := by
  have taken : program.step loop .dispatch =
      some (handler completion { loop with ready := rest }) := by
    simp only [Program.step, next]
    rfl
  refine ⟨[.dispatch], handler completion { loop with ready := rest }, ?_, ?_⟩
  · exact (Transition.run_cons_eq_some program.step).mpr ⟨_, taken, rfl⟩
  · intro along
    have shorter := ((along _ taken).1 timedOut).length_le
    rcases handler_cases completion { loop with ready := rest } with
      ⟨rfl, -⟩ | ⟨-, op, started⟩ | ⟨over_, -⟩
    · cases leading
    · rw [started] at shorter
      simp only [Loop.start, List.length_append, List.length_singleton] at shorter
      omega
    · rw [leading] at over_
      cases over_

/-- The handlers queued before a success run first, and do not take it back. -/
theorem restarts_of_queued {loop : ClientLoop} {completion : ClientCompletion}
    {before rest : List ClientCompletion} (timedOut : loop.user.timedOut = true)
    (queued : loop.ready = before ++ completion :: rest) (leading : starts completion = true) :
    Restarts loop := by
  induction before generalizing loop rest with
  | nil => exact restarts_of_head timedOut queued leading
  | cons first before ih =>
      have taken : program.step loop .dispatch =
          some (handler first { loop with ready := before ++ completion :: rest }) := by
        simp only [Program.step, queued, List.cons_append]
        rfl
      apply Restarts.of_step taken
      rcases handler_cases first { loop with ready := before ++ completion :: rest } with
        ⟨-, cancelled⟩ | ⟨-, op, started⟩ | ⟨-, -, ready, kept⟩
      · have later : (handler first { loop with ready := before ++ completion :: rest }).ready =
            before ++ completion :: (rest ++ (loop.pending.filter onStream).map aborted) := by
          rw [cancelled]
          show (before ++ completion :: rest) ++ _ = _
          rw [List.append_assoc, List.cons_append]
        exact ih (by rw [cancelled]; rfl) later
      · rw [started]
        exact ih timedOut rfl
      · exact ih (kept.trans timedOut) ready

/-- A resolve is out of the reach of the cancellation, and may still succeed. -/
theorem restarts_of_resolve {loop : ClientLoop} {op : ClientOp} (timedOut : loop.user.timedOut = true)
    (member : op ∈ loop.pending) (leading : leads op = true) (away : onStream op = false) :
    Restarts loop := by
  have resolves : answers (.resolve (.ok [])) op = true := by
    cases op with
    | resolve host port => rfl
    | connect endpoints => cases away
    | write req => cases away
    | timer expiresAfter => cases leading
    | read => cases leading
  have completes : program.step loop (.complete (.resolve (.ok []))) = some
      { loop with
        pending := loop.pending.eraseP (answers (.resolve (.ok [])))
        ready := loop.ready ++ [.resolve (.ok [])] } :=
    if_pos ⟨rfl, List.any_eq_true.mpr ⟨op, member, resolves⟩⟩
  apply Restarts.of_step completes
  exact restarts_of_queued timedOut rfl rfl

theorem not_quiet_cases {loop : ClientLoop} (busy : ¬ Quiet loop) :
    (∃ op ∈ loop.pending, leads op = true ∧ onStream op = false) ∨
      ∃ completion ∈ loop.ready, starts completion = true := by
  by_contra neither
  rw [not_or] at neither
  apply busy
  constructor
  · intro op member leading
    by_contra away
    exact neither.1 ⟨op, member, leading, by simpa using away⟩
  · intro completion member
    by_contra leading
    exact neither.2 ⟨completion, member, by simpa using leading⟩

/-- A timer handler that runs in any other state leaves the way open. -/
theorem restarts_of_not_quiet {loop : ClientLoop} (expires : expiresNext loop = true)
    (busy : ¬ Quiet loop) : Restarts loop := by
  obtain ⟨rest, next⟩ : ∃ rest, loop.ready = .timer none :: rest := by
    unfold expiresNext at expires
    split at expires
    · rename_i rest next
      exact ⟨rest, next⟩
    · cases expires
  let expired := handler (.timer none) { loop with ready := rest }
  have taken : program.step loop .dispatch = some expired := by
    simp only [Program.step, next]
    rfl
  have timedOut : expired.user.timedOut = true := rfl
  apply Restarts.of_step taken
  rcases not_quiet_cases busy with ⟨op, member, leading, away⟩ | ⟨completion, member, leading⟩
  · have still : op ∈ expired.pending := List.mem_filter.mpr ⟨member, by simp [away]⟩
    exact restarts_of_resolve timedOut still leading away
  · have ready : expired.ready = rest ++ (loop.pending.filter onStream).map aborted := rfl
    rw [next] at member
    rcases List.mem_cons.mp member with rfl | behind
    · cases leading
    · obtain ⟨before, after, split⟩ := List.append_of_mem behind
      rw [split, List.append_assoc, List.cons_append] at ready
      exact restarts_of_queued timedOut ready leading

end Defect

section Claim

/-- The deadline is final in the runs whose timer handler finds the client quiet, and each other
state in which it may run is on the way to a violation. -/
theorem deadline_final_if_quiet (host port target : String) (timeout : Int) :
    (∀ events, Transition.Meets program.step ExpiresQuietly (start host port target timeout) events →
      Transition.Along program.step StartsNothing (start host port target timeout) events) ∧
    ∀ events loop, Transition.run program.step (start host port target timeout) events = some loop →
      expiresNext loop → ¬ Quiet loop →
      ∃ more after, Transition.run program.step loop more = some after ∧
        ¬ Transition.Along program.step StartsNothing loop more := by
  constructor
  · intro events quietly
    exact Transition.along_of_invariant program.step ExpiresQuietly Final
      (fun _ _ _ final quiet taken => final.step quiet taken) (start_final host port target timeout)
      StartsNothing (fun _ _ _ final _ taken => final.startsNothing taken) quietly
  · intro events loop _ expires busy
    exact restarts_of_not_quiet expires busy

instance (loop : ClientLoop) : Decidable (Quiet loop) :=
  decidable_of_iff ((∀ op ∈ loop.pending, leads op → onStream op) ∧
      ∀ completion ∈ loop.ready, starts completion = false)
    ⟨fun both => ⟨both.1, both.2⟩, fun quiet => ⟨quiet.resolved, quiet.handled⟩⟩

instance (loop : ClientLoop) (event : ClientEvent) : Decidable (ExpiresQuietly loop event) :=
  match event with
  | .complete _ => isTrue trivial
  | .dispatch => inferInstanceAs (Decidable (expiresNext loop → Quiet loop))

/-- The silent server has accepted the connection and the request when the timer expires. -/
def silentReader : List ClientEvent :=
  [.complete (.resolve (.ok ["127.0.0.1:8086"])), .dispatch, .complete (.connect none), .dispatch,
    .complete (.write none), .dispatch, .complete (.timer none), .dispatch, .dispatch]

theorem deadline_final_of_silent_reader :
    Transition.Along program.step StartsNothing (start "127.0.0.1" "8086" "/health" 1000)
      silentReader :=
  (deadline_final_if_quiet "127.0.0.1" "8086" "/health" 1000).1 silentReader (by decide)

/-- The timer expires before the name is resolved. -/
def slowResolver : List ClientEvent :=
  [.complete (.timer none), .dispatch, .complete (.resolve (.ok ["127.0.0.1:8086"])), .dispatch]

/-- The connection is begun after the deadline, and nothing limits how long it takes. -/
theorem slow_resolver_connects :
    (∃ loop, Transition.run program.step (start "127.0.0.1" "8086" "/health" 1000) slowResolver =
      some loop ∧ loop.user.timedOut = true ∧ loop.pending = [.connect ["127.0.0.1:8086"]]) ∧
    ¬ Transition.Along program.step StartsNothing (start "127.0.0.1" "8086" "/health" 1000)
      slowResolver := by
  constructor
  · exact ⟨_, rfl, rfl, rfl⟩
  · intro along
    have third := (((along _ rfl).2 _ rfl).2 _ rfl).2
    have shorter := ((third _ rfl).1 rfl).length_le
    exact absurd shorter (by decide)

end Claim

end Chmicro.Http.HttpClient
