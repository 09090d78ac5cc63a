import Chmicro.EventPool
import Chmicro.HttpClientDeadline

set_option autoImplicit false

namespace Chmicro.Http

open EventLoop

/-- The operation is a step of the exchange, and not the timer's. -/
def ClientOp.exchanges : ClientOp → Bool
  | .timer _ => false
  | _ => true

def ClientCompletion.exchanges : ClientCompletion → Bool
  | .timer _ => false
  | _ => true

namespace HttpClient

/-- The operation that a completion leads to. -/
def following (req : ClientRequest) : ClientCompletion → Option ClientOp
  | .resolve (.ok results) => some (.connect results)
  | .connect none => some (.write req)
  | .write none => some .read
  | _ => none

/-- An exchange without a loop and a deadline: one operation at a time, and after each the one
that its success leads to. -/
def exchange (req : ClientRequest) : Option ClientOp → ClientCompletion → Option (Option ClientOp)
  | none, _ => none
  | some op, completion => if answers completion op then some (following req completion) else none

/-- What the network has completed of the exchange. -/
def completions (events : List ClientEvent) : List ClientCompletion :=
  events.filterMap fun
    | .complete completion => if completion.exchanges then some completion else none
    | .dispatch => none

section Operations

theorem completions_complete (completion : ClientCompletion) :
    completions [.complete completion] = if completion.exchanges then [completion] else [] := by
  by_cases exchanges : completion.exchanges
  · rw [if_pos exchanges]
    exact List.filterMap_cons_some (if_pos exchanges)
  · rw [if_neg exchanges]
    exact List.filterMap_cons_none (if_neg exchanges)

theorem exchanges_of_answers {completion : ClientCompletion} {op : ClientOp}
    (answered : answers completion op) : completion.exchanges = op.exchanges := by
  cases completion <;> cases op <;> first | rfl | cases answered

theorem exchanges_aborted (op : ClientOp) : (aborted op).exchanges = op.exchanges := by
  cases op <;> rfl

theorem exchanges_of_starts {completion : ClientCompletion} (next : starts completion) :
    completion.exchanges := by
  cases completion with
  | timer ec => cases next
  | resolve | connect | write | read => rfl

theorem handler_req (completion : ClientCompletion) (loop : ClientLoop) :
    (handler completion loop).user.req = loop.user.req := by
  cases completion with
  | timer ec | connect ec | write ec => cases ec <;> rfl
  | resolve result | read result => cases result <;> rfl

theorem handler_following {completion : ClientCompletion} (next : starts completion)
    (loop : ClientLoop) : ∃ op, following loop.user.req completion = some op ∧
      handler completion loop = loop.start op := by
  cases completion with
  | timer ec => cases next
  | read result => cases next
  | resolve result =>
      cases result with
      | error ec => cases next
      | ok results => exact ⟨.connect results, rfl, rfl⟩
  | connect ec =>
      cases ec with
      | some ec => cases next
      | none => exact ⟨.write loop.user.req, rfl, rfl⟩
  | write ec =>
      cases ec with
      | some ec => cases next
      | none => exact ⟨.read, rfl, rfl⟩

end Operations

section Spending

/-- The events that an operation may still take, with those of the operations after it. -/
def toCome : ClientOp → Nat
  | .resolve _ _ => 8
  | .connect _ => 6
  | .write _ => 4
  | .read => 2
  | .timer _ => 2

def toHandle : ClientCompletion → Nat
  | .resolve (.ok _) => 7
  | .connect none => 5
  | .write none => 3
  | _ => 1

theorem toHandle_pos (completion : ClientCompletion) : 0 < toHandle completion := by
  unfold toHandle
  split <;> omega

theorem toHandle_aborted (op : ClientOp) : toHandle (aborted op) ≤ toCome op := by
  cases op <;> simp [aborted, toHandle, toCome]

theorem toHandle_lt_toCome {completion : ClientCompletion} {op : ClientOp}
    (answered : answers completion op) : toHandle completion < toCome op := by
  cases completion <;> cases op <;> cases answered
  all_goals
    unfold toHandle
    split <;> simp_all [toCome]

theorem toCome_following {req : ClientRequest} {completion : ClientCompletion} {op : ClientOp}
    (next : following req completion = some op) : toCome op < toHandle completion := by
  unfold following at next
  split at next
  · cases next
    exact Nat.lt_succ_self 6
  · cases next
    exact Nat.lt_succ_self 4
  · cases next
    exact Nat.lt_succ_self 2
  · cases next

theorem spends : program.Spends toCome toHandle where
  answers _ _ answered := toHandle_lt_toCome answered
  handler := by
    intro completion loop
    have positive := toHandle_pos completion
    show weight toCome toHandle (handler completion loop) < _
    rcases handler_cases completion loop with ⟨-, cancelled⟩ | ⟨next, -⟩ | ⟨-, pending, ready, -⟩
    · have lighter := weight_cancel_le toCome toHandle
        { loop with user := { loop.user with timedOut := true } } onStream toHandle_aborted
      rw [cancelled]
      exact Nat.lt_of_le_of_lt lighter (Nat.lt_add_of_pos_right positive)
    · obtain ⟨op, follows, started⟩ := handler_following next loop
      have lighter := toCome_following follows
      rw [started, weight_start]
      omega
    · rw [weight, weight, pending, ready]
      omega

/-- The completion that ends a wait. A step of the exchange may always fail. -/
theorem exists_completion (op : ClientOp) :
    ∃ completion, possible completion ∧ answers completion op := by
  cases op with
  | timer => exact ⟨.timer none, rfl, rfl⟩
  | resolve => exact ⟨.resolve (.error operationAborted), rfl, rfl⟩
  | connect => exact ⟨.connect (some operationAborted), rfl, rfl⟩
  | write => exact ⟨.write (some operationAborted), rfl, rfl⟩
  | read => exact ⟨.read (.error operationAborted), rfl, rfl⟩

end Spending

/-- The loop against the exchange it carries on. At most one operation of it is outstanding or
queued, and that is the next one. -/
structure Pursues (req : ClientRequest) (left : Option ClientOp) (loop : ClientLoop) : Prop where
  req_eq : loop.user.req = req
  alone : EventPool.count ClientOp.exchanges ClientCompletion.exchanges loop ≤ 1
  outstanding : ∀ op ∈ loop.pending, op.exchanges → left = some op
  queued : ∀ completion ∈ loop.ready, starts completion → left = following req completion

theorem start_pursues (host port target : String) (timeout : Int) :
    Pursues { target, host } (some (.resolve host port)) (start host port target timeout) where
  req_eq := rfl
  alone := Nat.le_refl 1
  outstanding := by
    intro op member exchanges
    rcases List.mem_cons.mp member with rfl | resolves
    · cases exchanges
    · rw [List.mem_singleton.mp resolves]
  queued := fun _ impossible => by cases impossible

section Steps

variable {req : ClientRequest} {left : Option ClientOp} {loop : ClientLoop}

theorem no_op_of_count {op : ClientOp} (member : op ∈ loop.pending) (exchanges : op.exchanges)
    (none_ : loop.pending.countP ClientOp.exchanges = 0) : False :=
  List.countP_eq_zero.mp none_ op member exchanges

theorem no_start_of_count {completion : ClientCompletion} {ready : List ClientCompletion}
    (member : completion ∈ ready) (next : starts completion)
    (none_ : ready.countP ClientCompletion.exchanges = 0) : False :=
  List.countP_eq_zero.mp none_ completion member (exchanges_of_starts next)

/-- The network completes the next operation of the exchange, or else the timer. -/
theorem Pursues.complete (pursues : Pursues req left loop) {completion : ClientCompletion}
    (awaited : ∃ op ∈ loop.pending, answers completion op) :
    ∃ next, Transition.run (exchange req) left (completions [.complete completion]) = some next ∧
      Pursues req next { loop with
        pending := loop.pending.eraseP (answers completion)
        ready := loop.ready ++ [completion] } := by
  have count := EventPool.count_complete ClientOp.exchanges ClientCompletion.exchanges loop
    (fun op answered => exchanges_of_answers answered) awaited
  have alone := count.trans_le pursues.alone
  by_cases exchanges : completion.exchanges
  · obtain ⟨op, member, answered⟩ := awaited
    have next := pursues.outstanding op member ((exchanges_of_answers answered).symm.trans exchanges)
    have ran : Transition.run (exchange req) left (completions [.complete completion]) =
        some (following req completion) := by
      rw [completions_complete, if_pos exchanges, next, Transition.run_cons, exchange,
        if_pos answered]
      rfl
    rw [EventPool.count] at alone
    dsimp only at alone
    rw [List.countP_append, List.countP_singleton, if_pos exchanges] at alone
    refine ⟨following req completion, ran, pursues.req_eq, count.trans_le pursues.alone, ?_, ?_⟩
    · have none_ : (loop.pending.eraseP (answers completion)).countP ClientOp.exchanges = 0 := by
        omega
      exact fun other member exchanges => absurd exchanges (List.countP_eq_zero.mp none_ other member)
    · have none_ : loop.ready.countP ClientCompletion.exchanges = 0 := by omega
      intro other member next
      rcases List.mem_append.mp member with old | new
      · exact (no_start_of_count old next none_).elim
      · rw [List.mem_singleton.mp new]
  · have ran : Transition.run (exchange req) left (completions [.complete completion]) = some left := by
      rw [completions_complete, if_neg exchanges, Transition.run_nil]
    refine ⟨left, ran, pursues.req_eq, alone, ?_, ?_⟩
    · intro op member
      exact pursues.outstanding op (List.mem_of_mem_eraseP member)
    · intro other member next
      rcases List.mem_append.mp member with old | new
      · exact pursues.queued other old next
      · rw [List.mem_singleton.mp new] at next
        exact absurd (exchanges_of_starts next) exchanges

theorem Pursues.dispatch (pursues : Pursues req left loop) {completion : ClientCompletion}
    {rest : List ClientCompletion} (head : loop.ready = completion :: rest) :
    Pursues req left (handler completion { loop with ready := rest }) := by
  have later : ∀ other ∈ rest, other ∈ loop.ready := by
    intro other member
    rw [head]
    exact List.mem_cons_of_mem _ member
  have same := (handler_req completion { loop with ready := rest }).trans pursues.req_eq
  have alone := pursues.alone
  rw [EventPool.count, head, List.countP_cons] at alone
  have fewer : EventPool.count ClientOp.exchanges ClientCompletion.exchanges
      { loop with ready := rest } ≤ 1 := by
    rw [EventPool.count]
    dsimp only
    omega
  rcases handler_cases completion { loop with ready := rest } with
    ⟨-, cancelled⟩ | ⟨next, -⟩ | ⟨-, pending, ready, -⟩
  · rw [cancelled] at same ⊢
    refine ⟨same, ?_, ?_, ?_⟩
    · rw [EventPool.count_cancel _ _ _ _ exchanges_aborted]
      exact fewer
    · intro op member
      exact pursues.outstanding op (List.mem_filter.mp member).1
    · intro other member next
      rcases List.mem_append.mp member with old | new
      · exact pursues.queued other (later other old) next
      · obtain ⟨op, -, rfl⟩ := List.mem_map.mp new
        rw [starts_aborted] at next
        cases next
  · obtain ⟨op, follows, started⟩ := handler_following next { loop with ready := rest }
    have goes := pursues.queued completion (head ▸ List.mem_cons_self) next
    rw [if_pos (exchanges_of_starts next)] at alone
    have none_ : loop.pending.countP ClientOp.exchanges = 0 ∧
        rest.countP ClientCompletion.exchanges = 0 := by omega
    rw [started] at same ⊢
    refine ⟨same, ?_, ?_, ?_⟩
    · rw [EventPool.count_start, EventPool.count, none_.1, none_.2]
      split <;> omega
    · intro other member exchanges
      rcases Loop.mem_start_pending.mp member with old | rfl
      · exact (no_op_of_count old exchanges none_.1).elim
      · rw [goes, ← follows, ← pursues.req_eq]
    · exact fun other member next => (no_start_of_count member next none_.2).elim
  · refine ⟨same, ?_, ?_, ?_⟩
    · rw [EventPool.count, pending, ready]
      exact fewer
    · rw [pending]
      exact pursues.outstanding
    · rw [ready]
      exact fun other member => pursues.queued other (later other member)

end Steps

open Transition in
/-- A call of `Get` takes at most ten events, and every run of it can be gone on with until the
call returns. Its loop carries on an exchange of one operation at a time, each of which is the
one that the success of the last one leads to. -/
theorem get_returns (host port target : String) (timeout : Int) (events : List ClientEvent)
    (loop : ClientLoop)
    (reached : run program.step (start host port target timeout) events = some loop) :
    events.length ≤ 10 ∧
    (∃ left, run (exchange { target, host }) (some (.resolve host port)) (completions events) =
      some left ∧ Pursues { target, host } left loop) ∧
    ∃ more result, Gets host port target timeout (events ++ more) result := by
  refine ⟨spends.length_le _ reached, ?_, ?_⟩
  · refine invariant_history program.step (fun past loop => ∃ left,
      run (exchange { target, host }) (some (.resolve host port)) (completions past) = some left ∧
        Pursues { target, host } left loop) ?_
      ⟨_, rfl, start_pursues host port target timeout⟩ reached
    rintro past loop event after ⟨left, ran, pursues⟩ taken
    have parts : completions (past ++ [event]) = completions past ++ completions [event] :=
      List.filterMap_append
    rw [parts, run_append, ran, Option.bind_some]
    cases Program.step_moves taken with
    | completes completion allowed awaited => exact pursues.complete awaited
    | dispatches completion rest next => exact ⟨left, rfl, pursues.dispatch next⟩
  · obtain ⟨more, final, ended, idle⟩ := spends.exists_idle loop exists_completion
    refine ⟨more, outcome final.user, final, ?_, idle, rfl⟩
    rw [run_append, reached, Option.bind_some]
    exact ended

/-- The connection is up when the timer expires. -/
def expiredWriting : List ClientEvent :=
  [.complete (.resolve (.ok ["127.0.0.1:8080"])), .dispatch, .complete (.connect none), .dispatch,
    .complete (.timer none)]

theorem get_returns_expired_writing : ∃ loop more result,
    Transition.run program.step (start "localhost" "8080" "/health" 500) expiredWriting =
      some loop ∧
    Transition.run (exchange { target := "/health", host := "localhost" })
        (some (.resolve "localhost" "8080")) (completions expiredWriting) =
      some (some (.write { target := "/health", host := "localhost" })) ∧
    Gets "localhost" "8080" "/health" 500 (expiredWriting ++ more) result := by
  obtain ⟨-, -, more, result, gets⟩ :=
    get_returns "localhost" "8080" "/health" 500 expiredWriting _ rfl
  exact ⟨_, more, result, rfl, rfl, gets⟩

end HttpClient

end Chmicro.Http
