import Chmicro.EventPool
import Chmicro.HttpResponse
import Chmicro.HttpTarget
import Chmicro.MetricsExposition
import Chmicro.RouterRun

set_option autoImplicit false

namespace Chmicro.Http

/-- What handlers read of a request besides its method and its path. -/
structure Details where
  query : NodeMap Bytes Bytes := .empty
  trace : TraceContext := {}
  fields : Fields := []
  body : Bytes := []

/-- What handlers and middlewares share. The default registry is among it. -/
abbrev Shared (World : Type) := World × MetricsRegistry ℚ

namespace Router

variable {Rest World : Type} (router : Router Rest World) (req : Request Rest)

/-- The chain of calls always comes to its end. -/
theorem handle_isSome (state : State World) : (router.handle req state).isSome := by
  unfold handle
  cases router.routes.get? ⟨req.method, req.path⟩ with
  | none => rfl
  | some handler =>
      obtain ⟨out, _, ran, -⟩ := run_total router.middleware handler req
        (router.middleware.length + 1) [] 0 state (Nat.zero_le _) (Nat.lt_succ_self _)
      dsimp only
      rw [ran]
      rfl

/-- What `Handle` leaves of the response and of what is shared. -/
def route (state : State World) : State World :=
  ((router.handle req state).get (router.handle_isSome req state)).state

theorem route_eq {state : State World} {out : Outcome World}
    (handled : router.handle req state = some out) : router.route req state = out.state := by
  simp only [route, handled, Option.get_some]

theorem route_missing (missing : router.routes.get? ⟨req.method, req.path⟩ = none)
    (state : State World) : router.route req state = (notFound state.1, state.2) := by
  have handled : router.handle req state = some ⟨0, (notFound state.1, state.2), []⟩ := by
    rw [handle, missing]
  exact router.route_eq req handled

/-- Middlewares that each call at most once are nested around the handler. -/
theorem route_found {handler : Handler Rest World}
    (found : router.routes.get? ⟨req.method, req.path⟩ = some handler)
    (once : ∀ mw ∈ router.middleware, ∀ state, (mw req state).AtMostOnce) (state : State World) :
    router.route req state =
      NextChain.compose (handler req) (router.middleware.map fun mw => mw req) state := by
  obtain ⟨out, ran, faithful⟩ := run_faithful router.middleware handler req
    (router.middleware.length + 1) [] 0 state (Nat.zero_le _) (Nat.lt_succ_self _)
    (fun index => by simp)
  have calls : ∀ stage ∈ router.middleware.map fun mw => mw req, ∀ state,
      (stage state).AtMostOnce := by
    intro stage member
    obtain ⟨mw, listed, rfl⟩ := List.mem_map.mp member
    exact once mw listed
  have each := NextChain.onceEach_of_atMostOnce calls (handler req) state
  have handled : router.handle req state = some out := by
    rw [handle, found]
    exact ran
  rw [router.route_eq req handled]
  exact faithful.composed (faithful.gates.mpr each)

end Router

/-- A request that was handled, how long that took, and the response that was written to it. The
source keeps no such list. -/
structure Exchange where
  session : Nat
  message : Message
  elapsed : ℚ
  wire : WireResponse
  close : Bool

/-- The sessions of one server. A session is no more than its pending operation. -/
structure ServiceState (World : Type) where
  world : World
  metrics : MetricsRegistry ℚ := {}
  random : Stream' UInt8
  sessions : Nat := 0
  shut : List Nat := []
  exchanges : List Exchange := []
  terminated : Bool := false

inductive SessionOp where
  | accept
  | read (session : Nat)
  | write (session : Nat) (close : Bool)
  deriving DecidableEq, Repr

inductive ReadResult where
  | message (message : Message)
  | endOfStream
  | failed

inductive SessionCompletion where
  | accepted (failed : Bool)
  | read (session : Nat) (result : ReadResult)
  | written (session : Nat) (close failed : Bool)

abbrev ServiceLoop (World : Type) :=
  EventLoop.Loop (ServiceState World) SessionOp SessionCompletion

/-- The bounds of the latency histogram, in milliseconds. -/
def requestBounds : List ℚ := [1 / 4, 1 / 2, 1, 2, 5, 10, 25, 50, 100]

def pathLabels (path : Bytes) : MetricLabels := { kv := [(ascii "path", path)], sorted := by simp }

def pathAndStatus (path : Bytes) (status : UInt32) : MetricLabels where
  kv := [(ascii "path", path), (ascii "status", decimal status.toNat)]
  sorted := List.pairwise_pair.mpr (show ascii "path" < ascii "status" by decide)

namespace HttpSession

def answers : SessionCompletion → SessionOp → Bool
  | .accepted _, .accept => true
  | .read session _, .read other => session = other
  | .written session close _, .write other closing => session = other && close = closing
  | _, _ => false

/-- The network library reads no control character in a target. -/
def possible : SessionCompletion → Bool
  | .read _ (.message message) => newline ∉ message.target
  | _ => true

/-- The trace of the request, or a new one. -/
def traceOf (library : Library) (message : Message) (random : Stream' UInt8) :
    TraceContext × Stream' UInt8 :=
  let trace :=
    match library.find message.fields "traceparent" with
    | some value => TraceContext.parseTraceParent (ascii value)
    | none => {}
  if ¬ trace.valid then TraceContext.newRoot random else (trace, random)

def requestOf (message : Message) (trace : TraceContext) : Request Details where
  method := message.method
  path := text (extractPath message.target)
  rest :=
    { query := parseQuery message.target .empty
      trace
      fields := message.fields
      body := message.body }

/-- What `OnRead` adds to the default registry. -/
def measure (metrics : MetricsRegistry ℚ) (path : Bytes) (status : UInt32) (elapsed : ℚ) :
    MetricsRegistry ℚ :=
  let (hist, metrics) := metrics.histogramMetric (ascii "http_server_request_ms")
    (ascii "HTTP server request latency (ms)") requestBounds (pathLabels path)
  let metrics := metrics.observe hist elapsed
  let (counter, metrics) := metrics.counterMetric (ascii "http_server_requests_total")
    (ascii "HTTP server requests total") (pathAndStatus path status)
  metrics.inc counter 1

section Handlers

variable {World : Type} (library : Library) (router : Router Details (Shared World))

/-- The handling of one request: the response and what is shared afterwards. -/
def serve (message : Message) (user : ServiceState World) :
    TraceContext × State (Shared World) × Stream' UInt8 :=
  let (trace, random) := traceOf library message user.random
  (trace, router.route (requestOf message trace) ({}, user.world, user.metrics), random)

theorem serve_eq {message : Message} {user : ServiceState World} {trace : TraceContext}
    {state : State (Shared World)} {random : Stream' UInt8}
    (served : serve library router message user = (trace, state, random)) :
    trace = (traceOf library message user.random).1 ∧
    state = router.route (requestOf message trace) ({}, user.world, user.metrics) := by
  obtain ⟨rfl, routed⟩ := Prod.mk.inj served
  exact ⟨rfl, (Prod.mk.inj routed).1.symm⟩

/-- `OnRead` with a request. An exception of `prepare_payload` leaves the thread of the pool
and ends the process. -/
def onMessage (session : Nat) (message : Message) (elapsed : ℚ) (loop : ServiceLoop World) :
    ServiceLoop World :=
  let (trace, (resp, world, metrics), random) := serve library router message loop.user
  match library.respond message trace resp with
  | none => { user := { loop.user with terminated := true } }
  | some wire =>
      let close := library.needEof wire
      let metrics := measure metrics (extractPath message.target) resp.status elapsed
      let exchanges := loop.user.exchanges ++ [{ session, message, elapsed, wire, close }]
      let user := { loop.user with world, metrics, random, exchanges }
      { loop with user }.start (.write session close)

def doClose (session : Nat) (loop : ServiceLoop World) : ServiceLoop World :=
  { loop with user := { loop.user with shut := loop.user.shut ++ [session] } }

def onRead (session : Nat) (result : ReadResult) (elapsed : ℚ) (loop : ServiceLoop World) :
    ServiceLoop World :=
  match result with
  | .endOfStream => doClose session loop
  | .failed => loop
  | .message message => onMessage library router session message elapsed loop

def onWrite (session : Nat) (close failed : Bool) (loop : ServiceLoop World) :
    ServiceLoop World :=
  if failed then loop
  else if close then doClose session loop
  else loop.start (.read session)

/-- The handler of an accept, while the server runs. `Run` begins to read. -/
def onAccept (failed : Bool) (loop : ServiceLoop World) : ServiceLoop World :=
  if failed then loop.start .accept
  else
    let session := loop.user.sessions
    let user := { loop.user with sessions := session + 1 }
    ({ loop with user }.start (.read session)).start .accept

def handler : SessionCompletion → ℚ → ServiceLoop World → ServiceLoop World
  | .accepted failed, _, loop => onAccept failed loop
  | .read session result, elapsed, loop => onRead library router session result elapsed loop
  | .written session close failed, _, loop => onWrite session close failed loop

/-- Handlers read from outside how long they took. -/
def program : EventPool.Program (ServiceState World) SessionOp SessionCompletion ℚ where
  answers := answers
  possible := possible
  handler := handler library router

/-- A server that has started to accept. -/
def start (world : World) (random : Stream' UInt8) : ServiceLoop World where
  user := { world, random }
  pending := [.accept]

/-- Every way a handler ends. -/
inductive Handled (loop : ServiceLoop World) : SessionCompletion → ServiceLoop World → Prop where
  | accepts (failed : Bool) : Handled loop (.accepted failed) (onAccept failed loop)
  | ends (completion : SessionCompletion) (failed : (∃ session, completion = .read session .failed) ∨
      ∃ session close, completion = .written session close true) : Handled loop completion loop
  | shuts (session : Nat) (completion : SessionCompletion)
      (last : completion = .read session .endOfStream ∨ completion = .written session true false) :
      Handled loop completion (doClose session loop)
  | throws (session : Nat) (message : Message) (trace : TraceContext) (resp : Response)
      (world : World) (registry : MetricsRegistry ℚ) (random : Stream' UInt8)
      (served : serve library router message loop.user = (trace, (resp, world, registry), random))
      (unbuilt : library.respond message trace resp = none) :
      Handled loop (.read session (.message message))
        { user := { loop.user with terminated := true } }
  | answers (session : Nat) (message : Message) (trace : TraceContext) (resp : Response)
      (world : World) (registry : MetricsRegistry ℚ) (random : Stream' UInt8) (wire : WireResponse)
      (elapsed : ℚ)
      (served : serve library router message loop.user = (trace, (resp, world, registry), random))
      (built : library.respond message trace resp = some wire) :
      Handled loop (.read session (.message message))
        (EventLoop.Loop.start { loop with user := { loop.user with
            world
            metrics := measure registry (extractPath message.target) resp.status elapsed
            random
            exchanges := loop.user.exchanges ++
              [{ session, message, elapsed, wire, close := library.needEof wire }] } }
          (.write session (library.needEof wire)))
  | again (session : Nat) : Handled loop (.written session false false) (loop.start (.read session))

theorem handler_handled (completion : SessionCompletion) (elapsed : ℚ) (loop : ServiceLoop World) :
    Handled library router loop completion (handler library router completion elapsed loop) := by
  cases completion with
  | accepted failed => exact .accepts failed
  | read session result =>
      cases result with
      | endOfStream => exact .shuts session _ (.inl rfl)
      | failed => exact .ends _ (.inl ⟨session, rfl⟩)
      | message message =>
          rcases served : serve library router message loop.user with
            ⟨trace, ⟨resp, world, registry⟩, random⟩
          cases built : library.respond message trace resp with
          | none =>
              simp only [handler, onRead, onMessage, served, built]
              exact .throws session message trace resp world registry random served built
          | some wire =>
              simp only [handler, onRead, onMessage, served, built]
              exact .answers session message trace resp world registry random wire elapsed served built
  | written session close failed =>
      cases failed with
      | true => exact .ends _ (.inr ⟨session, close, rfl⟩)
      | false =>
          cases close with
          | true => exact .shuts session _ (.inr rfl)
          | false => exact .again session

/-- A handler completes nothing by itself. -/
theorem Handled.ready {loop after : ServiceLoop World} {completion : SessionCompletion}
    (handled : Handled library router loop completion after) :
    ∀ other ∈ after.ready, other ∈ loop.ready := by
  cases handled with
  | throws => exact fun _ impossible => by cases impossible
  | accepts failed => cases failed <;> exact fun _ member => member
  | ends | shuts | answers | again => exact fun _ member => member

end Handlers

section Rule

variable {World : Type} {library : Library} {router : Router Details (Shared World)}

/-- A request is answered: what its response is made of, and what is changed by then. -/
structure Answers (library : Library) (router : Router Details (Shared World))
    (user after : ServiceState World) (exchange : Exchange) (trace : TraceContext)
    (resp : Response) (registry : MetricsRegistry ℚ) : Prop where
  plain : newline ∉ exchange.message.target
  served : serve library router exchange.message user =
    (trace, (resp, after.world, registry), after.random)
  built : library.respond exchange.message trace resp = some exchange.wire
  exchanges : after.exchanges = user.exchanges ++ [exchange]
  metrics : after.metrics =
    measure registry (extractPath exchange.message.target) resp.status exchange.elapsed
  terminated : after.terminated = user.terminated

/-- A rule for what only requests change: it is kept when a request is answered, and when an
answer cannot be built. -/
structure Rule (library : Library) (router : Router Details (Shared World))
    (inv : ServiceState World → Prop) : Prop where
  ignores : ∀ {user} sessions shut, inv user → inv { user with sessions, shut }
  answers : ∀ {user after exchange trace resp registry}, inv user →
    Answers library router user after exchange trace resp registry → inv after
  throws : ∀ {user message trace state random}, inv user →
    serve library router message user = (trace, state, random) →
    library.respond message trace state.1 = none → inv { user with terminated := true }

namespace Rule

variable {inv : ServiceState World → Prop} (rule : Rule library router inv)

include rule

theorem handled {loop after : ServiceLoop World} {completion : SessionCompletion}
    (ends : Handled library router loop completion after) (plain : possible completion)
    (holds : inv loop.user) : inv after.user := by
  cases ends with
  | accepts failed =>
      cases failed with
      | true => exact holds
      | false => exact rule.ignores (loop.user.sessions + 1) loop.user.shut holds
  | ends => exact holds
  | shuts session => exact rule.ignores loop.user.sessions (loop.user.shut ++ [session]) holds
  | throws session message trace resp world registry random served unbuilt =>
      exact rule.throws holds served unbuilt
  | answers session message trace resp world registry random wire elapsed served built =>
      refine @Rule.answers _ _ _ _ rule _ _
        ⟨session, message, elapsed, wire, library.needEof wire⟩ trace resp registry holds ?_
      exact ⟨of_decide_eq_true plain, served, built, rfl, rfl, rfl⟩
  | again => exact holds

open Transition in
/-- What the rule keeps holds in every run. What was read is plain until it is handled. -/
theorem run {world : World} {random : Stream' UInt8} (initial : inv { world, random })
    {events : List (EventPool.Event SessionCompletion ℚ)} {loop : ServiceLoop World}
    (reached : Transition.run (program library router).step (start world random) events =
      some loop) : inv loop.user := by
  refine (invariant_always (program library router).step
    (fun loop => inv loop.user ∧ ∀ completion ∈ loop.ready, possible completion) ?_
    ⟨initial, by simp [start]⟩ reached).1
  rintro loop event after ⟨holds, plain⟩ taken
  cases EventPool.Program.step_moves taken with
  | completes completion allowed awaited =>
      refine ⟨holds, fun other member => ?_⟩
      rcases List.mem_append.mp member with old | new
      · exact plain other old
      · rw [List.mem_singleton.mp new]
        exact allowed
  | dispatches index elapsed completion here =>
      have ends := handler_handled library router completion elapsed
        { loop with ready := loop.ready.eraseIdx index }
      refine ⟨rule.handled ends (plain completion (List.mem_of_getElem? here)) holds, ?_⟩
      intro other member
      exact plain other (List.mem_of_mem_eraseIdx (ends.ready _ _ other member))

end Rule

end Rule

end HttpSession

end Chmicro.Http
