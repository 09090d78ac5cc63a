import Chmicro.EventLoop
import Chmicro.Status

set_option autoImplicit false

namespace Chmicro.Http

open EventLoop

/-- An error code of the network library. The client reads nothing but its message. -/
structure ErrorCode where
  message : String
  deriving DecidableEq, Repr

def operationAborted : ErrorCode := ⟨"Operation canceled"⟩

structure ClientRequest where
  method : String := "GET"
  version : Nat := 11
  target : String
  host : String
  userAgent : String := "chmicro/0.1"
  deriving DecidableEq, Repr

/-- The parts of a received message that the client returns. -/
structure ClientMessage where
  resultInt : Nat := 200
  body : String := ""
  contentType : Option String := none
  deriving DecidableEq, Repr

structure HttpClientResponse where
  status : Int := 0
  body : String := ""
  contentType : String := ""
  deriving DecidableEq, Repr

structure ClientOpState where
  req : ClientRequest
  resp : ClientMessage := {}
  ec : Option ErrorCode := none
  timedOut : Bool := false
  deriving DecidableEq, Repr

abbrev Endpoint := String

inductive ClientOp where
  | timer (expiresAfter : Int)
  | resolve (host port : String)
  | connect (endpoints : List Endpoint)
  | write (req : ClientRequest)
  | read
  deriving DecidableEq, Repr

inductive ClientCompletion where
  | timer (ec : Option ErrorCode)
  | resolve (result : Except ErrorCode (List Endpoint))
  | connect (ec : Option ErrorCode)
  | write (ec : Option ErrorCode)
  | read (result : Except ErrorCode ClientMessage)

abbrev ClientLoop := Loop ClientOpState ClientOp ClientCompletion

abbrev ClientEvent := Event ClientCompletion

namespace HttpClient

def answers : ClientCompletion → ClientOp → Bool
  | .timer _, .timer _ => true
  | .resolve _, .resolve _ _ => true
  | .connect _, .connect _ => true
  | .write _, .write _ => true
  | .read _, .read => true
  | _, _ => false

/-- The operations `stream.cancel()` reaches. A pending resolve is not among them. -/
def onStream : ClientOp → Bool
  | .connect _ | .write _ | .read => true
  | .timer _ | .resolve _ _ => false

def aborted : ClientOp → ClientCompletion
  | .timer _ => .timer (some operationAborted)
  | .resolve _ _ => .resolve (.error operationAborted)
  | .connect _ => .connect (some operationAborted)
  | .write _ => .write (some operationAborted)
  | .read => .read (.error operationAborted)

def fail (loop : ClientLoop) (ec : ErrorCode) : ClientLoop :=
  { loop with user := { loop.user with ec := some ec } }

def handler : ClientCompletion → ClientLoop → ClientLoop
  | .timer (some _), loop => loop
  | .timer none, loop =>
      Loop.cancel { loop with user := { loop.user with timedOut := true } } onStream aborted
  | .resolve (.error ec), loop => fail loop ec
  | .resolve (.ok results), loop => loop.start (.connect results)
  | .connect (some ec), loop => fail loop ec
  | .connect none, loop => loop.start (.write loop.user.req)
  | .write (some ec), loop => fail loop ec
  | .write none, loop => loop.start .read
  | .read (.error ec), loop => fail loop ec
  -- The socket is shut down here. The timer is not cancelled.
  | .read (.ok resp), loop => { loop with user := { loop.user with resp } }

/-- The completions whose handlers start the next operation. -/
def starts : ClientCompletion → Bool
  | .resolve (.ok _) => true
  | .connect none => true
  | .write none => true
  | _ => false

/-- What a handler does besides failing, by its completion. -/
theorem handler_cases (completion : ClientCompletion) (loop : ClientLoop) :
    (completion = .timer none ∧ handler completion loop =
      Loop.cancel { loop with user := { loop.user with timedOut := true } } onStream aborted) ∨
    (starts completion = true ∧ ∃ op, handler completion loop = loop.start op) ∨
    (starts completion = false ∧ (handler completion loop).pending = loop.pending ∧
      (handler completion loop).ready = loop.ready ∧
      (handler completion loop).user.timedOut = loop.user.timedOut) := by
  cases completion with
  | timer ec =>
      cases ec with
      | none => exact .inl ⟨rfl, rfl⟩
      | some ec => exact .inr (.inr ⟨rfl, rfl, rfl, rfl⟩)
  | resolve result =>
      cases result with
      | error ec => exact .inr (.inr ⟨rfl, rfl, rfl, rfl⟩)
      | ok results => exact .inr (.inl ⟨rfl, .connect results, rfl⟩)
  | connect ec =>
      cases ec with
      | none => exact .inr (.inl ⟨rfl, .write loop.user.req, rfl⟩)
      | some ec => exact .inr (.inr ⟨rfl, rfl, rfl, rfl⟩)
  | write ec =>
      cases ec with
      | none => exact .inr (.inl ⟨rfl, .read, rfl⟩)
      | some ec => exact .inr (.inr ⟨rfl, rfl, rfl, rfl⟩)
  | read result =>
      cases result with
      | error ec => exact .inr (.inr ⟨rfl, rfl, rfl, rfl⟩)
      | ok resp => exact .inr (.inr ⟨rfl, rfl, rfl, rfl⟩)

/-- A timer wait fails only when it is cancelled, and nobody cancels it. -/
def possible : ClientCompletion → Bool
  | .timer (some _) => false
  | _ => true

def program : Program ClientOpState ClientOp ClientCompletion where
  answers := answers
  possible := possible
  handler := handler

/-- What `Get` has set up when it calls `run`. -/
def start (host port target : String) (timeout : Int) : ClientLoop :=
  (Loop.start { user := { req := { target, host } } } (.timer timeout)).start (.resolve host port)

def received (resp : ClientMessage) : HttpClientResponse where
  status := resp.resultInt
  body := resp.body
  contentType := resp.contentType.getD ""

/-- What `Get` returns after `run`. -/
def outcome (st : ClientOpState) : Result HttpClientResponse :=
  if st.timedOut then
    .error { code := .timeout, message := "http client timeout" }
  else
    match st.ec with
    | some ec => .error { code := .unavailable, message := ec.message }
    | none => .ok (received st.resp)

/-- One call of `Get`: the events of its loop up to the return of `run`. -/
def Gets (host port target : String) (timeout : Int) (events : List ClientEvent)
    (result : Result HttpClientResponse) : Prop :=
  ∃ loop, Transition.run program.step (start host port target timeout) events = some loop ∧
    loop.Idle ∧ outcome loop.user = result

end HttpClient

end Chmicro.Http
