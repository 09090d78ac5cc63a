import Chmicro.HttpSessionTrace
import Chmicro.KvServerPlain

set_option autoImplicit false

namespace Chmicro.HelloServer

open Http HttpSession KvServer

/-- The handlers share nothing but the default registry. -/
abbrev HelloHandler := Handler Details (Shared Unit)

section Handlers

variable (externals : KvExternals)

def health : HelloHandler := fun _ (resp, shared) =>
  (sendText "text/plain; charset=utf-8" "ok" resp, shared)

/-- The name that is greeted. -/
def nameOf (query : NodeMap Bytes Bytes) : Bytes :=
  let name := Http.query query (ascii "name")
  if name = [] then ascii "world" else name

/-- The members of the greeting. -/
def greeting (req : Request Details) : List (Bytes × JsonValue) :=
  [(ascii "message", .string (ascii "hello, " ++ nameOf req.rest.query)),
    (ascii "traceparent", .string req.rest.trace.toTraceParent)]

def hello : HelloHandler := fun req (resp, shared) =>
  let contentType := "application/json; charset=utf-8"
  ({ resp with contentType, body := externals.dump (greeting req) }, shared)

def metrics : HelloHandler := fun _ (resp, world, metrics) =>
  (sendText "text/plain; version=0.0.4; charset=utf-8" (externals.expose metrics) resp,
    world, metrics)

def registrations : List (Registration Details (Shared Unit)) :=
  [.addRoute .get "/health" health, .addRoute .get "/hello" (hello externals),
    .addRoute .get "/metrics" (metrics externals)]

/-- The router of the service. -/
def router : Router Details (Shared Unit) := Registration.build (registrations externals)

end Handlers

section Answers

variable (externals : KvExternals)

/-- What the service says to a request, when the registry is this. -/
def answer (req : Request Details) (registry : MetricsRegistry ℚ) : Answer :=
  if req.method = .get ∧ req.path = "/health" then ⟨200, "text/plain; charset=utf-8", "ok"⟩
  else if req.method = .get ∧ req.path = "/hello" then json externals 200 (greeting req)
  else if req.method = .get ∧ req.path = "/metrics" then
    ⟨200, "text/plain; version=0.0.4; charset=utf-8", externals.expose registry⟩
  else ⟨404, "application/json; charset=utf-8", "\x7b\"error\":\"not_found\"\x7d"⟩

def rows : List (RouteKey × HelloHandler) :=
  [(⟨.get, "/health"⟩, health), (⟨.get, "/hello"⟩, hello externals),
    (⟨.get, "/metrics"⟩, metrics externals)]

theorem route_router (req : Request Details) (state : State (Shared Unit)) :
    (router externals).route req state =
      match (rows externals).lookup ⟨req.method, req.path⟩ with
      | none => (Router.notFound state.1, state.2)
      | some handler => handler req state := by
  have distinct : ((rows externals).map Prod.fst).Nodup := by
    show ([⟨.get, "/health"⟩, ⟨.get, "/hello"⟩, ⟨.get, "/metrics"⟩] : List RouteKey).Nodup
    decide
  have routes : (router externals).routes.get? ⟨req.method, req.path⟩ =
      (rows externals).lookup ⟨req.method, req.path⟩ :=
    (Registration.build_routes _ _).trans (Registration.lastHandler_table distinct _)
  have bare : (router externals).middleware = [] := Registration.build_middleware _
  cases found : (rows externals).lookup ⟨req.method, req.path⟩ with
  | none => exact Router.route_missing _ req (routes.trans found) state
  | some handler =>
      rw [Router.route_found _ req (routes.trans found) (by simp [bare]), bare]
      rfl

/-- Handlers set no headers, and leave the registry alone. -/
theorem route_answer (req : Request Details) (registry : MetricsRegistry ℚ) :
    let after := (router externals).route req ({}, (), registry)
    Answer.of after.1 = answer externals req registry ∧ after.1.headers = .empty ∧
      after.2 = ((), registry) := by
  have key (path : String) : ((⟨req.method, req.path⟩ : RouteKey) == ⟨.get, path⟩) =
      decide (req.method = .get ∧ req.path = path) := by
    rw [Bool.eq_iff_iff, beq_iff_eq, decide_eq_true_iff, RouteKey.mk.injEq]
  dsimp only
  rw [route_router, answer, rows, List.lookup_cons, key]
  by_cases health : req.method = .get ∧ req.path = "/health"
  · rw [decide_eq_true health, if_pos health]
    exact ⟨rfl, rfl, rfl⟩
  rw [decide_eq_false health, if_neg health, List.lookup_cons, key]
  by_cases hello : req.method = .get ∧ req.path = "/hello"
  · rw [decide_eq_true hello, if_pos hello]
    exact ⟨rfl, rfl, rfl⟩
  rw [decide_eq_false hello, if_neg hello, List.lookup_cons, key]
  by_cases metrics : req.method = .get ∧ req.path = "/metrics"
  · rw [decide_eq_true metrics, if_pos metrics]
    exact ⟨rfl, rfl, rfl⟩
  rw [decide_eq_false metrics, if_neg metrics, List.lookup_nil]
  exact ⟨rfl, rfl, rfl⟩

theorem traceless : Traceless (router externals) := by
  intro req shared
  obtain ⟨-, bare, -⟩ := route_answer externals req shared.2
  rw [Response.header, bare]
  rfl

theorem quiet (req : Request Details) (state : State (Shared Unit)) :
    ((router externals).route req state).2.2 = state.2.2 := by
  rw [route_router]
  have rows_quiet : ∀ row ∈ rows externals, (row.2 req state).2.2 = state.2.2 := by
    simp only [rows, List.forall_mem_cons]
    exact ⟨rfl, rfl, rfl, by simp⟩
  cases found : (rows externals).lookup ⟨req.method, req.path⟩ with
  | none => rfl
  | some handler =>
      obtain ⟨before, after, split, -⟩ := List.lookup_eq_some_iff.mp found
      exact rows_quiet (⟨req.method, req.path⟩, handler) (by simp [split])

/-- Every answer can be written. -/
theorem writable (req : Request Details) (registry : MetricsRegistry ℚ) :
    (answer externals req registry).Writable := by
  have ok : MayHaveBody 200 := by decide
  have missing : MayHaveBody 404 := by decide
  unfold answer
  split_ifs
  · exact ⟨ok, storable_plain⟩
  · exact ⟨ok, storable_json⟩
  · exact ⟨ok, storable_exposition⟩
  · exact ⟨missing, storable_json⟩

end Answers

section Runs

variable (externals : KvExternals) (library : Library) (random : Stream' UInt8)

/-- The answer of the service, with the trace in its header that a greeting has in its body. The
registry is what the requests before have made of it, and counts them. -/
structure Answered (before : List Exchange) (exchange : Exchange) : Prop where
  answer : Answer.on library exchange.wire =
    some (answer externals
      (requestOf exchange.message (traceAfter library random before exchange.message))
      (measured before))
  traced : library.find exchange.wire.fields "traceparent" =
    some (text (traceAfter library random before exchange.message).toTraceParent)
  counted : ∀ path status, newline ∉ path →
    requestCount (measured before) (requestsKey path status) =
      tally Int64.ofNat (answered path status before)

/-- A service that has answered every request so. -/
structure AnsweredSoFar (user : ServiceState Unit) : Prop where
  alive : user.terminated = false
  counted : Counted user
  left : user.random = random.drop (24 * untraced library user.exchanges)
  answered : ∀ (index : Nat) exchange, user.exchanges[index]? = some exchange →
    Answered externals library random (user.exchanges.take index) exchange

section Steps

variable {externals library random} {user : ServiceState Unit}

/-- A request that the service serves. -/
theorem serve_answer {message : Message} {trace : TraceContext} {resp : Response}
    {shared : Shared Unit} {rest : Stream' UInt8}
    (served : serve library (router externals) message user = (trace, (resp, shared), rest)) :
    Answer.of resp = answer externals (requestOf message trace) user.metrics ∧
      resp.headers = .empty := by
  have answered := route_answer externals (requestOf message trace) user.metrics
  dsimp only at answered
  rw [← (serve_eq library (router externals) served).2] at answered
  exact ⟨answered.1, answered.2.1⟩

theorem AnsweredSoFar.answers (before : AnsweredSoFar externals library random user)
    {after : ServiceState Unit} {exchange : Exchange} {trace : TraceContext} {resp : Response}
    {registry : MetricsRegistry ℚ}
    (answers : Answers library (router externals) user after exchange trace resp registry) :
    AnsweredSoFar externals library random after := by
  obtain ⟨said, bare⟩ := serve_answer answers.served
  obtain ⟨drew, left⟩ := random_left before.left answers
  have untyped : resp.header "Content-Type" = none := by
    rw [Response.header, bare]
    rfl
  have explains : Answered externals library random user.exchanges exchange := by
    constructor
    · rw [← drew, ← before.counted.metrics, ← said]
      refine Answer.on_built ?_ untyped answers.built
      rw [said]
      exact writable _ _ _
    · rw [← drew]
      exact respond_trace (traceless externals) answers.served answers.built
    · exact fun path status whole => requestCount_measured before.counted.plain whole status
  refine ⟨answers.terminated.trans before.alive, before.counted.answers (quiet externals) answers,
    left, ?_⟩
  rw [answers.exchanges]
  exact ListSet.each_concat before.answered explains

end Steps

theorem answered_rule : Rule library (router externals) (AnsweredSoFar externals library random) where
  ignores _ _ before :=
    ⟨before.alive, ⟨before.counted.metrics, before.counted.plain⟩, before.left, before.answered⟩
  answers before answers := before.answers answers
  throws := by
    intro user message trace state rest before served unbuilt
    obtain ⟨said, bare⟩ := serve_answer served
    have written : (Answer.of state.1).Writable := by
      rw [said]
      exact writable _ _ _
    have storable : ∀ header ∈ state.1.headers.nodes, Storable header.1 header.2 := by
      rw [bare]
      exact fun _ impossible => by cases impossible
    have built := @Answer.Writable.isSome library message trace state.1 written storable
    rw [unbuilt] at built
    cases built

open Transition in
/-- In every run of the service each request is answered by its method, its path, its query and
its trace alone, but for the metrics, which count the requests before it. A greeting names in
its body the trace that its header names. The process goes on. -/
theorem hello_served (events : List (EventPool.Event SessionCompletion ℚ))
    (loop : ServiceLoop Unit)
    (reached : run (program library (router externals)).step (start () random) events =
      some loop) :
    loop.user.terminated = false ∧
    ∀ (index : Nat) exchange, loop.user.exchanges[index]? = some exchange →
      Answered externals library random (loop.user.exchanges.take index) exchange := by
  have initial : AnsweredSoFar externals library random { world := (), random } :=
    ⟨rfl, counted_start () random, rfl, by simp⟩
  have all := (answered_rule externals library random).run initial reached
  exact ⟨all.alive, all.answered⟩

/-- A request to be greeted, with a trace. -/
def greeted : Message where
  method := .get
  target := ascii "/hello?name=lean"
  fields := traced.fields

/-- Two sessions, one of which is greeted. -/
def greetOne : List (EventPool.Event SessionCompletion ℚ) :=
  [.complete (.accepted false), .dispatch 0 0, .complete (.accepted false), .dispatch 0 0,
    .complete (.read 1 (.message fresh)), .dispatch 0 1,
    .complete (.read 0 (.message greeted)), .dispatch 0 1]

theorem hello_served_greeting : ∃ loop exchange,
    Transition.run (program backwards (router names)).step (start () counting) greetOne =
      some loop ∧
    loop.user.terminated = false ∧ loop.user.exchanges[1]? = some exchange ∧
    Answered names backwards counting (loop.user.exchanges.take 1) exchange := by
  have runs : (Transition.run (program backwards (router names)).step (start () counting)
      greetOne).any (·.user.exchanges.length = 2) := by
    decide +kernel
  obtain ⟨loop, reached, two⟩ := (Option.any_eq_true _ _).mp runs
  obtain ⟨alive, answered⟩ := hello_served names backwards counting greetOne loop reached
  have inside : 1 < loop.user.exchanges.length := by
    have two := of_decide_eq_true two
    omega
  have found := List.getElem?_eq_getElem inside
  exact ⟨loop, loop.user.exchanges[1], reached, alive, found, answered 1 _ found⟩

end Runs

end Chmicro.HelloServer
