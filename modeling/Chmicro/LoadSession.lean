import Mathlib
import Chmicro.EventPool
import Chmicro.LatencyHistogram

set_option autoImplicit false

namespace Chmicro.Loadgen

open EventLoop

/-- What a session reads of the options. -/
structure Options where
  host : String := "127.0.0.1"
  port : String := "8087"
  target : String := "/get?key=hot"
  timeoutMs : Int := 1000
  keepalive : Bool := true
  deriving DecidableEq

/-- The request template. -/
structure LoadRequest where
  version : Nat := 11
  method : String := "GET"
  target : String := ""
  host : String := ""
  userAgent : String := "chmicro_loadgen/0.1"
  keepAlive : Bool := true
  deriving DecidableEq

/-- The session's own data. Each call on the histogram is logged with the request it is about,
if it is about one. Requests are numbered as they are started. -/
structure SessionState where
  opt : Options
  req : LoadRequest := {}
  startNs : UInt64 := 0
  started : Nat := 0
  log : List (Option Nat × Record) := []
  deriving DecidableEq

inductive SessionOp where
  | resolve (host port : String)
  | connect (results : List String) (expiresAfterMs : Int)
  | write (request : Nat) (req : LoadRequest)
  | read (request : Nat)
  | timeout (request : Nat) (afterMs : Int)
  | reconnect (afterMs : Int)
  deriving DecidableEq

/-- The parts of a response that the session looks at. -/
structure Received where
  bytesTransferred : UInt64
  needEof : Bool := false
  deriving DecidableEq

/-- Nothing but the presence of an error is looked at, and in a timer's whether it was aborted. -/
inductive SessionCompletion where
  | resolve (results : Option (List String))
  | connect (failed : Bool)
  | write (request : Nat) (failed : Bool)
  | read (request : Nat) (received : Option Received)
  | timeout (request : Nat) (aborted : Bool)
  | reconnect (aborted : Bool)
  deriving DecidableEq

/-- What one handler reads outside the session: `ShouldStop()` and the clock. -/
structure Readings where
  stop : Bool := false
  endNs : UInt64 := 0
  startNs : UInt64 := 0

abbrev SessionLoop := Loop SessionState SessionOp SessionCompletion

namespace LoadSession

def answers : SessionCompletion → SessionOp → Bool
  | .resolve _, .resolve _ _ => true
  | .connect _, .connect _ _ => true
  | .write request _, .write other _ => request = other
  | .read request _, .read other => request = other
  | .timeout request _, .timeout other _ => request = other
  | .reconnect _, .reconnect _ => true
  | _, _ => false

/-- A timer that was not cancelled expires, and does not complete otherwise. -/
def possible : SessionCompletion → Bool
  | .timeout _ aborted => !aborted
  | .reconnect aborted => !aborted
  | _ => true

def onSocket : SessionOp → Bool
  | .connect _ _ | .write _ _ | .read _ => true
  | _ => false

def onTimer : SessionOp → Bool
  | .timeout _ _ | .reconnect _ => true
  | _ => false

def aborted : SessionOp → SessionCompletion
  | .resolve _ _ => .resolve none
  | .connect _ _ => .connect true
  | .write request _ => .write request true
  | .read request => .read request none
  | .timeout request _ => .timeout request true
  | .reconnect _ => .reconnect true

/-- `RecordOk` or `RecordErr` on the histogram. -/
def record (loop : SessionLoop) (request : Option Nat) (call : Record) : SessionLoop :=
  { loop with user := { loop.user with log := loop.user.log ++ [(request, call)] } }

/-- The socket is closed. -/
def close (loop : SessionLoop) : SessionLoop := loop.cancel onSocket aborted

/-- `timer_.cancel()`, and what `timer_.expires_after` does before it sets the expiry. -/
def cancelTimer (loop : SessionLoop) : SessionLoop := loop.cancel onTimer aborted

def resolve (input : Readings) (loop : SessionLoop) : SessionLoop :=
  if input.stop then loop
  else loop.start (.resolve loop.user.opt.host loop.user.opt.port)

def reconnectSoon (input : Readings) (loop : SessionLoop) : SessionLoop :=
  let loop := close loop
  if input.stop then loop
  else (cancelTimer loop).start (.reconnect 50)

def doRequest (input : Readings) (loop : SessionLoop) : SessionLoop :=
  if input.stop then close loop
  else
    let request := loop.user.started
    let loop : SessionLoop :=
      { loop with user := { loop.user with startNs := input.startNs, started := request + 1 } }
    let loop := (cancelTimer loop).start (.timeout request loop.user.opt.timeoutMs)
    loop.start (.write request loop.user.req)

def onResolve (results : Option (List String)) (input : Readings) (loop : SessionLoop) :
    SessionLoop :=
  match results with
  | none => reconnectSoon input (record loop none .err)
  | some results => loop.start (.connect results loop.user.opt.timeoutMs)

def onConnect (failed : Bool) (input : Readings) (loop : SessionLoop) : SessionLoop :=
  if failed then reconnectSoon input (record loop none .err)
  else
    let opt := loop.user.opt
    let req : LoadRequest :=
      { target := opt.target, host := opt.host, keepAlive := opt.keepalive }
    doRequest input { loop with user := { loop.user with req } }

def onTimeout (request : Nat) (aborted : Bool) (loop : SessionLoop) : SessionLoop :=
  if aborted then loop else close (record loop (some request) .err)

def onWrite (request : Nat) (failed : Bool) (input : Readings) (loop : SessionLoop) :
    SessionLoop :=
  if failed then reconnectSoon input (record (cancelTimer loop) (some request) .err)
  else loop.start (.read request)

def onRead (request : Nat) (received : Option Received) (input : Readings) (loop : SessionLoop) :
    SessionLoop :=
  let loop := cancelTimer loop
  match received with
  | none => reconnectSoon input (record loop (some request) .err)
  | some response =>
      let latencyUs := (input.endNs - loop.user.startNs) / 1000
      let loop := record loop (some request) (.ok latencyUs response.bytesTransferred)
      if !loop.user.opt.keepalive || response.needEof then reconnectSoon input loop
      else doRequest input loop

def onReconnectTimer (aborted : Bool) (input : Readings) (loop : SessionLoop) : SessionLoop :=
  if aborted then loop else resolve input loop

def handler : SessionCompletion → Readings → SessionLoop → SessionLoop
  | .resolve results, input, loop => onResolve results input loop
  | .connect failed, input, loop => onConnect failed input loop
  | .write request failed, input, loop => onWrite request failed input loop
  | .read request received, input, loop => onRead request received input loop
  | .timeout request aborted, _, loop => onTimeout request aborted loop
  | .reconnect aborted, input, loop => onReconnectTimer aborted input loop

def program : EventPool.Program SessionState SessionOp SessionCompletion Readings where
  answers := answers
  possible := possible
  handler := handler

/-- A session after `Start`. -/
def start (opt : Options) (input : Readings) : SessionLoop := resolve input { user := { opt } }

/-- The records that are about one request. -/
def recorded (request : Nat) (loop : SessionLoop) : Nat :=
  loop.user.log.countP fun entry => entry.1 = some request

end LoadSession

end Chmicro.Loadgen
