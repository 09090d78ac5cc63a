import Chmicro.HttpSession
import Chmicro.Transition

set_option autoImplicit false

namespace Chmicro.Http

def SessionOp.serves (session : Nat) : SessionOp → Bool
  | .accept => false
  | .read other | .write other _ => other = session

def SessionCompletion.serves (session : Nat) : SessionCompletion → Bool
  | .accepted _ => false
  | .read other _ | .written other _ _ => other = session

namespace HttpSession

open EventLoop

variable {World : Type}

/-- How many operations and completions of a session are outstanding or queued. -/
def live (session : Nat) (loop : ServiceLoop World) : Nat :=
  EventPool.count (SessionOp.serves session) (SessionCompletion.serves session) loop

/-- Nothing of the session is left but the write of its last response. -/
structure Closing (session : Nat) (loop : ServiceLoop World) : Prop where
  pending : ∀ op ∈ loop.pending, op.serves session → op = .write session true
  ready : ∀ completion ∈ loop.ready, completion.serves session →
    ∃ failed, completion = .written session true failed

structure Orderly (loop : ServiceLoop World) : Prop where
  single : ∀ session, live session loop ≤ 1
  begun : ∀ session, loop.user.sessions ≤ session → live session loop = 0
  known : ∀ exchange ∈ loop.user.exchanges, exchange.session < loop.user.sessions
  closing : ∀ exchange ∈ loop.user.exchanges, exchange.close → Closing exchange.session loop
  last : loop.user.exchanges.Pairwise fun earlier later =>
    earlier.session = later.session → earlier.close = false
  shut : ∀ session ∈ loop.user.shut, session < loop.user.sessions ∧ live session loop = 0
  once : loop.user.shut.Nodup

section Live

variable {session : Nat} {loop : ServiceLoop World}

theorem answered_serves {completion : SessionCompletion} {op : SessionOp}
    (answered : answers completion op) : completion.serves session = op.serves session := by
  cases completion <;> cases op <;> simp_all [answers, SessionOp.serves, SessionCompletion.serves]

theorem live_start (op : SessionOp) :
    live session (loop.start op) = live session loop + if op.serves session then 1 else 0 :=
  EventPool.count_start _ _ loop op

theorem live_pos_of_ready {completion : SessionCompletion} (queued : completion ∈ loop.ready)
    (serves : completion.serves session) : 0 < live session loop := by
  have some_ := List.countP_pos_iff.mpr ⟨completion, queued, serves⟩
  rw [live, EventPool.count]
  omega

theorem closing_of_silent (silent : live session loop = 0) : Closing session loop := by
  rw [live, EventPool.count, Nat.add_eq_zero_iff, List.countP_eq_zero, List.countP_eq_zero] at silent
  exact ⟨fun op member serves => (silent.1 op member serves).elim,
    fun completion member serves => (silent.2 completion member serves).elim⟩

theorem closing_start {op : SessionOp} (closing : Closing session loop)
    (own : op.serves session → op = .write session true) : Closing session (loop.start op) where
  pending := by
    intro other member serves
    rcases Loop.mem_start_pending.mp member with old | rfl
    · exact closing.pending other old serves
    · exact own serves
  ready := closing.ready

/-- What completes is that write. -/
theorem Closing.completes {completion : SessionCompletion} (closing : Closing session loop)
    (awaited : ∃ op ∈ loop.pending, answers completion op) :
    Closing session { loop with
      pending := loop.pending.eraseP (answers completion)
      ready := loop.ready ++ [completion] } where
  pending op kept := closing.pending op (List.mem_of_mem_eraseP kept)
  ready := by
    intro other queued serves
    rcases List.mem_append.mp queued with old | new
    · exact closing.ready other old serves
    · obtain ⟨op, waits, answered⟩ := awaited
      rw [List.mem_singleton.mp new] at serves ⊢
      have own : op.serves session := answered_serves answered ▸ serves
      rw [closing.pending op waits own] at answered
      cases completion with
      | accepted other => cases answered
      | read other result => cases answered
      | written other close failed =>
          obtain ⟨rfl, rfl⟩ : other = session ∧ close = true := by simpa [answers] using answered
          exact ⟨failed, rfl⟩

end Live

section Steps

variable {loop : ServiceLoop World} (orderly : Orderly loop)

include orderly

/-- The completion that is handled leaves the queue. -/
theorem Orderly.take {index : Nat} {completion : SessionCompletion}
    (here : loop.ready[index]? = some completion) :
    Orderly { loop with ready := loop.ready.eraseIdx index } := by
  have fewer (session : Nat) :
      live session { loop with ready := loop.ready.eraseIdx index } ≤ live session loop := by
    have taken := EventPool.count_take (SessionOp.serves session)
      (SessionCompletion.serves session) loop here
    rw [live, live]
    omega
  constructor
  · exact fun session => Nat.le_trans (fewer session) (orderly.single session)
  · exact fun session new =>
      Nat.le_zero.mp (Nat.le_trans (fewer session) (Nat.le_of_eq (orderly.begun session new)))
  · exact orderly.known
  · intro exchange member close
    have before := orderly.closing exchange member close
    exact ⟨before.pending, fun other queued =>
      before.ready other (List.mem_of_mem_eraseIdx queued)⟩
  · exact orderly.last
  · intro session member
    obtain ⟨old, silent⟩ := orderly.shut session member
    exact ⟨old, Nat.le_zero.mp (Nat.le_trans (fewer session) (Nat.le_of_eq silent))⟩
  · exact orderly.once

/-- A session whose completion is handled has nothing else under way, and is not shut. -/
theorem Orderly.turn {index session : Nat} {completion : SessionCompletion}
    (here : loop.ready[index]? = some completion) (serves : completion.serves session) :
    session < loop.user.sessions ∧ session ∉ loop.user.shut ∧
      live session { loop with ready := loop.ready.eraseIdx index } = 0 := by
  have queued := List.mem_of_getElem? here
  have positive := live_pos_of_ready queued serves
  refine ⟨?_, fun member => ?_, ?_⟩
  · by_contra new
    have none_ := orderly.begun session (Nat.le_of_not_lt new)
    omega
  · have silent := (orderly.shut session member).2
    omega
  · have taken := EventPool.count_take (SessionOp.serves session)
      (SessionCompletion.serves session) loop here
    have single := orderly.single session
    rw [if_pos serves] at taken
    rw [live] at single ⊢
    omega

theorem Orderly.completes {completion : SessionCompletion}
    (awaited : ∃ op ∈ loop.pending, answers completion op) :
    Orderly { loop with
      pending := loop.pending.eraseP (answers completion)
      ready := loop.ready ++ [completion] } := by
  have same (session : Nat) : live session { loop with
      pending := loop.pending.eraseP (answers completion)
      ready := loop.ready ++ [completion] } = live session loop := by
    exact EventPool.count_complete _ _ loop (fun op answered => answered_serves answered) awaited
  constructor
  · exact fun session => (same session).symm ▸ orderly.single session
  · exact fun session new => (same session).trans (orderly.begun session new)
  · exact orderly.known
  · intro exchange member close
    exact (orderly.closing exchange member close).completes awaited
  · exact orderly.last
  · exact fun session member => (same session).symm ▸ orderly.shut session member
  · exact orderly.once

/-- An operation of a session that has none. -/
theorem Orderly.starts {session : Nat} {op : SessionOp}
    (own : ∀ other, op.serves other → other = session) (old : session < loop.user.sessions)
    (isOpen : session ∉ loop.user.shut) (silent : live session loop = 0)
    (allowed : ∀ exchange ∈ loop.user.exchanges, exchange.close → exchange.session = session →
      op = .write session true) :
    Orderly (loop.start op) := by
  constructor
  · intro other
    have single := orderly.single other
    rw [live_start]
    by_cases serves : op.serves other
    · rw [own other serves, silent]
      split <;> omega
    · rw [if_neg serves]
      exact single
  · intro other new
    have none_ := orderly.begun other new
    have apart : ¬ op.serves other := fun serves => by
      have same := own other serves
      have bound : loop.user.sessions ≤ other := new
      omega
    rw [live_start, if_neg apart, none_]
  · exact orderly.known
  · intro exchange member close
    refine closing_start (orderly.closing exchange member close) fun serves => ?_
    have same := own exchange.session serves
    rw [same]
    exact allowed exchange member close same
  · exact orderly.last
  · intro other member
    obtain ⟨bound, none_⟩ := orderly.shut other member
    have apart : ¬ op.serves other := fun serves => isOpen (own other serves ▸ member)
    exact ⟨bound, by rw [live_start, if_neg apart, none_]⟩
  · exact orderly.once

theorem Orderly.startsAccept : Orderly (loop.start .accept) := by
  have same (session : Nat) : live session (loop.start .accept) = live session loop := by
    rw [live_start]
    rfl
  constructor
  · exact fun session => (same session).symm ▸ orderly.single session
  · exact fun session new => (same session).trans (orderly.begun session new)
  · exact orderly.known
  · exact fun exchange member close =>
      closing_start (orderly.closing exchange member close) fun impossible => by cases impossible
  · exact orderly.last
  · exact fun session member => (same session).symm ▸ orderly.shut session member
  · exact orderly.once

theorem Orderly.accepts (failed : Bool) : Orderly (onAccept failed loop) := by
  cases failed with
  | true => exact orderly.startsAccept
  | false => ?_
  have grown : Orderly
      { loop with user := { loop.user with sessions := loop.user.sessions + 1 } } := by
    constructor
    · exact orderly.single
    · exact fun session new => orderly.begun session (Nat.le_of_succ_le new)
    · exact fun exchange member => Nat.lt_succ_of_lt (orderly.known exchange member)
    · intro exchange member close
      have before := orderly.closing exchange member close
      exact ⟨before.pending, before.ready⟩
    · exact orderly.last
    · intro session member
      obtain ⟨old, silent⟩ := orderly.shut session member
      exact ⟨Nat.lt_succ_of_lt old, silent⟩
    · exact orderly.once
  refine (grown.starts (fun other serves => ?_) (Nat.lt_succ_self _) (fun member => ?_)
    (orderly.begun _ (Nat.le_refl _)) fun exchange member _ same => ?_).startsAccept
  · exact (of_decide_eq_true serves).symm
  · exact absurd (orderly.shut _ member).1 (Nat.lt_irrefl _)
  · exact absurd (same ▸ orderly.known exchange member) (Nat.lt_irrefl _)

theorem Orderly.shuts {session : Nat} (old : session < loop.user.sessions)
    (isOpen : session ∉ loop.user.shut) (silent : live session loop = 0) :
    Orderly (doClose session loop) := by
  constructor
  · exact orderly.single
  · exact orderly.begun
  · exact orderly.known
  · intro exchange member close
    have before := orderly.closing exchange member close
    exact ⟨before.pending, before.ready⟩
  · exact orderly.last
  · intro other member
    rcases List.mem_append.mp member with before | now
    · exact orderly.shut other before
    · rw [List.mem_singleton.mp now]
      exact ⟨old, silent⟩
  · exact List.nodup_append.mpr ⟨orderly.once, List.nodup_singleton session,
      fun other member last isLast same => isOpen (List.mem_singleton.mp isLast ▸ same ▸ member)⟩

/-- A response is written on a session that has said no last one. -/
theorem Orderly.answers {exchange : Exchange} {user : ServiceState World}
    (sessions : user.sessions = loop.user.sessions) (shut : user.shut = loop.user.shut)
    (exchanges : user.exchanges = loop.user.exchanges ++ [exchange])
    (old : exchange.session < loop.user.sessions) (isOpen : exchange.session ∉ loop.user.shut)
    (silent : live exchange.session loop = 0)
    (unclosed : ∀ before ∈ loop.user.exchanges, before.close → before.session ≠ exchange.session) :
    Orderly (EventLoop.Loop.start { loop with user } (.write exchange.session exchange.close)) := by
  have told : Orderly { loop with user } := by
    constructor
    · exact orderly.single
    · exact fun session new => orderly.begun session (sessions ▸ new)
    · intro other member
      rw [exchanges] at member
      rw [sessions]
      rcases List.mem_append.mp member with before | now
      · exact orderly.known other before
      · exact List.mem_singleton.mp now ▸ old
    · intro other member close
      rw [exchanges] at member
      rcases List.mem_append.mp member with before | now
      · have still := orderly.closing other before close
        exact ⟨still.pending, still.ready⟩
      · exact List.mem_singleton.mp now ▸ closing_of_silent silent
    · show user.exchanges.Pairwise _
      rw [exchanges, List.pairwise_append]
      refine ⟨orderly.last, List.pairwise_singleton _ _, fun before member now isNow same => ?_⟩
      rw [List.mem_singleton.mp isNow] at same
      by_contra close
      exact unclosed before member (by simpa using close) same
    · show ∀ session ∈ user.shut, session < user.sessions ∧ _
      rw [shut, sessions]
      exact orderly.shut
    · show user.shut.Nodup
      rw [shut]
      exact orderly.once
  refine told.starts (fun other serves => (of_decide_eq_true serves).symm) (sessions ▸ old)
    (shut ▸ isOpen) silent fun other member close same => ?_
  rw [exchanges] at member
  rcases List.mem_append.mp member with before | now
  · exact (unclosed other before close same).elim
  · rw [List.mem_singleton.mp now] at close
    rw [close]

/-- Nothing runs any more once the process has ended. -/
theorem Orderly.terminates : Orderly
    ({ user := { loop.user with terminated := true } } : ServiceLoop World) where
  single _ := Nat.zero_le 1
  begun _ _ := rfl
  known := orderly.known
  closing _ _ _ := closing_of_silent rfl
  last := orderly.last
  shut session member := ⟨(orderly.shut session member).1, rfl⟩
  once := orderly.once

variable {library : Library} {router : Router Details (Shared World)}

theorem Orderly.dispatches {index : Nat} {completion : SessionCompletion} {after : ServiceLoop World}
    (here : loop.ready[index]? = some completion)
    (handled : Handled library router { loop with ready := loop.ready.eraseIdx index } completion
      after) : Orderly after := by
  have taken := orderly.take here
  have queued := List.mem_of_getElem? here
  -- After its last response only the write of it can complete.
  have unclosed (session : Nat) (serves : completion.serves session)
      (other : ∀ failed, completion ≠ .written session true failed) :
      ∀ exchange ∈ loop.user.exchanges, exchange.close → exchange.session ≠ session := by
    rintro exchange member close rfl
    obtain ⟨failed, same⟩ := (orderly.closing exchange member close).ready completion queued serves
    exact other failed same
  cases handled with
  | accepts failed => exact taken.accepts failed
  | ends => exact taken
  | shuts session _ last =>
      have serves : completion.serves session := by
        rcases last with rfl | rfl <;> exact decide_eq_true rfl
      obtain ⟨old, isOpen, silent⟩ := orderly.turn here serves
      exact taken.shuts old isOpen silent
  | throws => exact taken.terminates
  | answers session message trace resp world registry random wire elapsed served built =>
      obtain ⟨old, isOpen, silent⟩ := orderly.turn here (decide_eq_true rfl)
      exact @Orderly.answers _ _ taken
        ⟨session, message, elapsed, wire, library.needEof wire⟩ _ rfl rfl rfl old isOpen silent
        (unclosed session (decide_eq_true rfl) fun _ => by simp)
  | again session =>
      obtain ⟨old, isOpen, silent⟩ := orderly.turn here (decide_eq_true rfl)
      refine taken.starts (fun other serves => (of_decide_eq_true serves).symm) old isOpen silent ?_
      intro exchange member close same
      exact (unclosed session (decide_eq_true rfl) (fun _ => by simp) exchange member close same).elim

theorem Orderly.step {after : ServiceLoop World} {event : EventPool.Event SessionCompletion ℚ}
    (taken : (program library router).step loop event = some after) : Orderly after := by
  cases EventPool.Program.step_moves taken with
  | completes completion possible awaited => exact orderly.completes awaited
  | dispatches index elapsed completion here =>
      exact orderly.dispatches here (handler_handled library router completion elapsed _)

end Steps

theorem orderly_start (world : World) (random : Stream' UInt8) : Orderly (start world random) where
  single _ := Nat.zero_le 1
  begun _ _ := rfl
  known := by simp [start]
  closing := by simp [start]
  last := .nil
  shut := by simp [start]
  once := .nil

open Transition in
/-- However connections, requests and handlers interleave, a session has one operation at most
under way. It answers no request after the response that closes the connection, and it is shut
down once at most, with nothing under way. -/
theorem session_protocol (library : Library) (router : Router Details (Shared World))
    (world : World) (random : Stream' UInt8) (events : List (EventPool.Event SessionCompletion ℚ))
    (loop : ServiceLoop World)
    (reached : run (program library router).step (start world random) events = some loop) :
    (∀ session, live session loop ≤ 1) ∧
    (loop.user.exchanges.Pairwise fun earlier later =>
      earlier.session = later.session → earlier.close = false) ∧
    loop.user.shut.Nodup ∧ ∀ session ∈ loop.user.shut, live session loop = 0 := by
  have orderly := invariant_always (program library router).step Orderly
    (fun _ _ _ orderly taken => orderly.step taken) (orderly_start world random) reached
  exact ⟨orderly.single, orderly.last, orderly.once,
    fun session member => (orderly.shut session member).2⟩

def parting : Message where
  method := .get
  target := ascii "/x?k=v"
  fields := [("connection", "close")]

/-- A request that ends its connection, on one of two sessions, and an accept that fails. -/
def lastRequest : List (EventPool.Event SessionCompletion ℚ) :=
  [.complete (.accepted false), .dispatch 0 0, .complete (.accepted true), .dispatch 0 0,
    .complete (.accepted false), .dispatch 0 0, .complete (.read 1 (.message parting)),
    .dispatch 0 3, .complete (.written 1 true false), .dispatch 0 0]

theorem session_protocol_last_request :
    ∃ loop, Transition.run (program backwards {}).step (start () (Stream'.const 7)) lastRequest =
        some loop ∧
      loop.user.shut = [1] ∧ ∀ session ∈ loop.user.shut, live session loop = 0 :=
  ⟨_, rfl, rfl, (session_protocol backwards {} () (Stream'.const 7) lastRequest _ rfl).2.2.2⟩

end HttpSession

end Chmicro.Http
