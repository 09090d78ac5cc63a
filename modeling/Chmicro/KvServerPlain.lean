import Chmicro.HttpSessionMetrics
import Chmicro.HttpSessionTrace
import Chmicro.KvServer

set_option autoImplicit false

namespace Chmicro

open Http HttpSession

namespace Http.Registration

variable {Rest World : Type}

/-- The calls that register a table of routes. -/
def table (rows : List (RouteKey × Handler Rest World)) : List (Registration Rest World) :=
  rows.map fun row => .addRoute row.1.method row.1.path row.2

/-- No row of a table hides another one. -/
theorem lastHandler_table {rows : List (RouteKey × Handler Rest World)}
    (distinct : (rows.map Prod.fst).Nodup) (key : RouteKey) :
    lastHandler (table rows) key = rows.lookup key := by
  induction rows with
  | nil => rfl
  | cons row rest ih =>
      obtain ⟨fresh, distinct⟩ := List.nodup_cons.mp distinct
      have later := ih distinct
      rw [lastHandler, table, List.map_cons, List.lookup_cons]
      by_cases same : key = row.1
      · have missing : rest.lookup key = none := by
          rw [List.lookup_eq_none_iff]
          intro other member
          rw [bne_iff_ne]
          intro equal
          exact fresh (List.mem_map.mpr ⟨other, member, equal.symm.trans same⟩)
        rw [missing, lastHandler, List.getLast?_eq_none_iff] at later
        rw [beq_iff_eq.mpr same]
        simp only [List.filterMap_cons, handlerFor, same, ↓reduceIte]
        rw [← same]
        exact congrArg (fun found => (row.2 :: found).getLast?) later
      · rw [beq_eq_false_iff_ne.mpr same]
        simp only [List.filterMap_cons, handlerFor, Ne.symm same, ↓reduceIte]
        exact later

end Http.Registration

namespace KvServer

/-- Tables whose rows go together find what goes together. -/
theorem lookup_rel {κ α β : Type} [BEq κ] {R : κ → α → β → Prop} [LawfulBEq κ]
    {first : List (κ × α)} {second : List (κ × β)}
    (rows : List.Forall₂ (fun row other => row.1 = other.1 ∧ R row.1 row.2 other.2) first second)
    (key : κ) : Option.Rel (R key) (first.lookup key) (second.lookup key) := by
  induction rows with
  | nil => exact .none
  | @cons row other first second both rows ih =>
      obtain ⟨name, value⟩ := row
      obtain ⟨same, value'⟩ := other
      obtain ⟨rfl, related⟩ := both
      rw [List.lookup_cons, List.lookup_cons]
      dsimp only
      split
      · rename_i found
        rw [beq_iff_eq.mp found]
        exact .some related
      · exact ih

/-- What a response says, whatever its headers. -/
structure Answer where
  status : UInt32
  contentType : String
  body : String

def Answer.of (resp : Http.Response) : Answer := ⟨resp.status, resp.contentType, resp.body⟩

/-- What is said on the wire. -/
def Answer.on (library : Library) (wire : WireResponse) : Option Answer :=
  (library.find wire.fields "Content-Type").map fun contentType => ⟨wire.status, contentType, wire.body⟩

/-- An answer that the network library writes. -/
structure Answer.Writable (answer : Answer) : Prop where
  bodied : MayHaveBody answer.status
  typed : Storable "Content-Type" answer.contentType

/-- The wire says what the response says, when its headers do not speak of its type. -/
theorem Answer.on_built {library : Library} {message : Message} {trace : TraceContext}
    {resp : Http.Response} {wire : WireResponse} (writable : (Answer.of resp).Writable)
    (untyped : resp.header "Content-Type" = none)
    (built : library.respond message trace resp = some wire) :
    Answer.on library wire = some (Answer.of resp) := by
  obtain ⟨status, -, body⟩ := respond_kept built
  rw [Answer.on, respond_contentType built writable.typed untyped, Option.map_some, status, body]
  rfl

theorem Answer.Writable.isSome {library : Library} {message : Message} {trace : TraceContext}
    {resp : Http.Response} (writable : (Answer.of resp).Writable)
    (headers : ∀ header ∈ resp.headers.nodes, Storable header.1 header.2) :
    (library.respond message trace resp).isSome :=
  respond_isSome writable.bodied ⟨writable.typed, storable_toTraceParent trace⟩ headers

section Plain

variable (externals : KvExternals) (maxValueBytes : Nat)

/-- The answer of a plain handler, from the puts made so far, the last one first. -/
abbrev PlainHandler := Request Details → List (Bytes × Bytes) → MetricsRegistry ℚ → Answer

def json (status : UInt32) (members : List (Bytes × JsonValue)) : Answer :=
  ⟨status, "application/json; charset=utf-8", externals.dump members⟩

def refused (status : UInt32) (error : String) (more : List (Bytes × JsonValue)) : Answer :=
  json externals status ((ascii "error", .string (ascii error)) :: more)

/-- What a body asks to be put, or how it is refused. -/
def asksPut (body : Bytes) : Except Answer (Bytes × Bytes) :=
  match externals.parse body with
  | none => .error (refused externals 400 "invalid json" [])
  | some root =>
      let key := getStringOrDefault root (ascii "key") []
      let value := getStringOrDefault root (ascii "value") []
      if key = [] then .error (refused externals 400 "missing field: key" [])
      else if maxValueBytes < value.length then
        .error (refused externals 413 "value too large" [(ascii "max", .integer maxValueBytes)])
      else .ok (key, value)

def plainPut : PlainHandler := fun req _ _ =>
  match asksPut externals maxValueBytes req.rest.body with
  | .error answer => answer
  | .ok _ => json externals 200 [(ascii "ok", .boolean true)]

def plainGet : PlainHandler := fun req puts _ =>
  let key := Http.query req.rest.query (ascii "key")
  if key = [] then refused externals 400 "missing query param: key" []
  else
    match puts.lookup key with
    | none => refused externals 404 "not found" [(ascii "key", .string key)]
    | some value =>
        json externals 200 [(ascii "key", .string key), (ascii "value", .string value),
          (ascii "traceparent", .string req.rest.trace.toTraceParent)]

def plainRows : List (RouteKey × PlainHandler) :=
  [(⟨.get, "/health"⟩, fun _ _ _ => ⟨200, "text/plain; charset=utf-8", "ok"⟩),
    (⟨.get, "/stats"⟩, fun _ puts _ =>
      json externals 200 [(ascii "keys", .integer (puts.map Prod.fst).dedup.length)]),
    (⟨.get, "/get"⟩, plainGet externals),
    (⟨.post, "/put"⟩, plainPut externals maxValueBytes),
    (⟨.get, "/compute"⟩, fun req _ _ =>
      json externals 200 [(ascii "ok", .boolean true),
        (ascii "iters", .integer (iterations req.rest.query).toInt64.toInt)]),
    (⟨.get, "/metrics"⟩, fun _ _ registry =>
      ⟨200, "text/plain; version=0.0.4; charset=utf-8", externals.expose registry⟩)]

def plainHandler (req : Request Details) : Option PlainHandler :=
  (plainRows externals maxValueBytes).lookup ⟨req.method, req.path⟩

/-- What one plain map answers. -/
def plainAnswer (req : Request Details) (puts : List (Bytes × Bytes))
    (registry : MetricsRegistry ℚ) : Answer :=
  match plainHandler externals maxValueBytes req with
  | none => ⟨404, "application/json; charset=utf-8", "\x7b\"error\":\"not_found\"\x7d"⟩
  | some plain => plain req puts registry

/-- The put that a request makes, if it makes one. -/
def putOf (method : Verb) (path : String) (body : Bytes) : Option (Bytes × Bytes) :=
  if method = .post ∧ path = "/put" then (asksPut externals maxValueBytes body).toOption
  else none

/-- The puts of the requests that were handled, the last one first. -/
def putsOf (exchanges : List Exchange) : List (Bytes × Bytes) :=
  (exchanges.filterMap fun exchange =>
    putOf externals maxValueBytes exchange.message.method
      (text (extractPath exchange.message.target)) exchange.message.body).reverse

end Plain

section Implements

variable {hash : Bytes → Nat} (externals : KvExternals) (library : Library) (maxValueBytes : Nat)

/-- The store holds what was put, and is never let grow beyond its bound on values. -/
structure Keeps (world : KvWorld hash) (puts : List (Bytes × Bytes)) : Prop where
  holds : world.service.store.Holds puts
  bound : world.service.maxValueBytes = maxValueBytes

/-- A handler answers a request of its route as the plain one, and puts what the request puts. -/
def Implements (key : RouteKey) (handler : KvHandler hash) (plain : PlainHandler) : Prop :=
  ∀ (req : Request Details) (resp : Http.Response) (world : KvWorld hash)
    (registry : MetricsRegistry ℚ) (puts : List (Bytes × Bytes)),
    (⟨req.method, req.path⟩ : RouteKey) = key → Keeps maxValueBytes world puts →
    let after := handler req (resp, world, registry)
    Answer.of after.1 = plain req puts registry ∧ after.1.headers = resp.headers ∧
      Keeps maxValueBytes after.2.1
        ((putOf externals maxValueBytes req.method req.path req.rest.body).toList ++ puts)

variable {externals} {maxValueBytes}

/-- A handler that reads and puts nothing. -/
theorem implements_reads {path : String} {handler : KvHandler hash} {plain : PlainHandler}
    (reads : ∀ req resp world registry puts, Keeps maxValueBytes world puts →
      ∃ answered : Http.Response, handler req (resp, world, registry) = (answered, world, registry) ∧
        Answer.of answered = plain req puts registry ∧ answered.headers = resp.headers) :
    Implements externals maxValueBytes ⟨.get, path⟩ handler plain := by
  intro req resp world registry puts same keeps
  obtain ⟨answered, ran, said, headers⟩ := reads req resp world registry puts keeps
  have nothing : putOf externals maxValueBytes req.method req.path req.rest.body = none := by
    rw [putOf, (RouteKey.mk.inj same).1, if_neg (by simp)]
  dsimp only
  rw [ran, nothing]
  exact ⟨said, headers, keeps⟩

theorem implements_get : Implements externals maxValueBytes ⟨.get, "/get"⟩
    (@get hash externals) (plainGet externals) := by
  apply implements_reads
  intro req resp world registry puts keeps
  refine ⟨_, rfl, ?_, rfl⟩
  unfold KvService.get plainGet
  dsimp only
  split
  · rfl
  · rw [keeps.holds.get]
    cases puts.lookup (Http.query req.rest.query (ascii "key")) <;> rfl

theorem implements_put : Implements externals maxValueBytes ⟨.post, "/put"⟩
    (@put hash externals) (plainPut externals maxValueBytes) := by
  intro req resp world registry puts same keeps
  obtain ⟨method, path⟩ := RouteKey.mk.inj same
  dsimp only
  rw [putOf, if_pos ⟨method, path⟩]
  unfold put KvService.put plainPut asksPut
  dsimp only
  cases externals.parse req.rest.body with
  | none => exact ⟨rfl, rfl, keeps⟩
  | some root =>
      dsimp only
      rw [keeps.bound]
      split_ifs
      · exact ⟨rfl, rfl, keeps⟩
      · exact ⟨rfl, rfl, keeps⟩
      · exact ⟨rfl, rfl, keeps.holds.put _ _, rfl⟩

variable (externals) (maxValueBytes)

def rows : List (RouteKey × KvHandler hash) :=
  [(⟨.get, "/health"⟩, health), (⟨.get, "/stats"⟩, stats externals),
    (⟨.get, "/get"⟩, get externals), (⟨.post, "/put"⟩, put externals),
    (⟨.get, "/compute"⟩, compute externals), (⟨.get, "/metrics"⟩, metrics externals)]

theorem rows_implement : List.Forall₂
    (fun row other => row.1 = other.1 ∧ Implements externals maxValueBytes row.1 row.2 other.2)
    (@rows hash externals) (plainRows externals maxValueBytes) := by
  refine .cons ⟨rfl, ?_⟩ (.cons ⟨rfl, ?_⟩ (.cons ⟨rfl, implements_get⟩ (.cons ⟨rfl, implements_put⟩
    (.cons ⟨rfl, ?_⟩ (.cons ⟨rfl, ?_⟩ .nil)))))
  · exact implements_reads fun _ _ _ _ _ _ => ⟨_, rfl, rfl, rfl⟩
  · refine implements_reads fun _ _ _ _ _ keeps => ⟨_, rfl, ?_, rfl⟩
    rw [keeps.holds.size]
    rfl
  · exact implements_reads fun _ _ _ _ _ _ => ⟨_, rfl, rfl, rfl⟩
  · exact implements_reads fun _ _ _ _ _ _ => ⟨_, rfl, rfl, rfl⟩

theorem router_routes (key : RouteKey) :
    (@router hash externals library).routes.get? key = (@rows hash externals).lookup key := by
  have distinct : ((@rows hash externals).map Prod.fst).Nodup := by
    show ([⟨.get, "/health"⟩, ⟨.get, "/stats"⟩, ⟨.get, "/get"⟩, ⟨.post, "/put"⟩,
      ⟨.get, "/compute"⟩, ⟨.get, "/metrics"⟩] : List RouteKey).Nodup
    decide
  exact (Registration.build_routes _ key).trans (Registration.lastHandler_table distinct key)

theorem router_middleware :
    (@router hash externals library).middleware = [identify library] :=
  Registration.build_middleware _

/-- What the middleware hands on. -/
def identified (req : Request Details) (state : KvState hash) : KvState hash :=
  let (reqId, world) := requestId library req state.2.1
  let headers := state.1.headers.assign "x-request-id" reqId
  let headers := headers.assign "x-trace-id" (text req.rest.trace.traceId)
  let headers := headers.assign "x-span-id" (text req.rest.trace.spanId)
  ({ state.1 with headers }, world, state.2.2)

theorem route_router (req : Request Details) (state : KvState hash) :
    (@router hash externals library).route req state =
      match (@rows hash externals).lookup ⟨req.method, req.path⟩ with
      | none => (Router.notFound state.1, state.2)
      | some handler => handler req (identified library req state) := by
  cases found : (@rows hash externals).lookup ⟨req.method, req.path⟩ with
  | none => exact Router.route_missing _ req (by rw [router_routes, found]) state
  | some handler =>
      have once : ∀ mw ∈ (@router hash externals library).middleware, ∀ state,
          (mw req state).AtMostOnce := by
        rw [router_middleware]
        intro mw member
        rw [List.mem_singleton.mp member]
        exact fun _ _ => rfl
      have routed : (@router hash externals library).routes.get? ⟨req.method, req.path⟩ =
          some handler := by
        rw [router_routes, found]
      rw [Router.route_found _ req routed once, router_middleware]
      rfl

theorem router_quiet (req : Request Details) (state : KvState hash) :
    ((@router hash externals library).route req state).2.2 = state.2.2 := by
  rw [route_router]
  have rows_quiet : ∀ row ∈ @rows hash externals, ∀ state, (row.2 req state).2.2 = state.2.2 := by
    simp only [rows, List.forall_mem_cons]
    exact ⟨fun _ => rfl, fun _ => rfl, fun _ => rfl, fun _ => rfl, fun _ => rfl, fun _ => rfl,
      by simp⟩
  cases found : (@rows hash externals).lookup ⟨req.method, req.path⟩ with
  | none => rfl
  | some handler =>
      obtain ⟨before, after, split, -⟩ := List.lookup_eq_some_iff.mp found
      exact rows_quiet (⟨req.method, req.path⟩, handler) (by simp [split]) _

end Implements

section Route

variable {hash : Bytes → Nat} (library : Library) (req : Request Details) (world : KvWorld hash)
  (registry : MetricsRegistry ℚ)

theorem identified_service :
    (identified library req ({}, world, registry)).2.1.service = world.service := by
  unfold identified requestId
  cases library.find req.rest.fields "x-request-id" <;> rfl

variable (externals : KvExternals) {maxValueBytes : Nat} {puts : List (Bytes × Bytes)}

/-- The headers that the middleware sets, where there is a route. -/
def headersOf (maxValueBytes : Nat) : List (String × String) :=
  if (plainHandler externals maxValueBytes req).isSome then
    [("x-request-id", (requestId library req world).1), ("x-trace-id", text req.rest.trace.traceId),
      ("x-span-id", text req.rest.trace.spanId)]
  else []

theorem putOf_missing (missing : plainHandler externals maxValueBytes req = none) :
    putOf externals maxValueBytes req.method req.path req.rest.body = none := by
  rw [putOf, if_neg]
  rintro ⟨method, path⟩
  rw [plainHandler, method, path] at missing
  cases missing

theorem route_plain (keeps : Keeps maxValueBytes world puts) :
    let after := (router externals library).route req ({}, world, registry)
    Answer.of after.1 = plainAnswer externals maxValueBytes req puts registry ∧
    after.1.headers.nodes = headersOf library req world externals maxValueBytes ∧
    Keeps maxValueBytes after.2.1
      ((putOf externals maxValueBytes req.method req.path req.rest.body).toList ++ puts) := by
  have related := lookup_rel (@rows_implement hash externals maxValueBytes) ⟨req.method, req.path⟩
  have nothing := @putOf_missing req externals maxValueBytes
  dsimp only
  rw [route_router, plainAnswer, headersOf]
  unfold plainHandler at nothing ⊢
  generalize (@rows hash externals).lookup ⟨req.method, req.path⟩ = handler at related ⊢
  generalize (plainRows externals maxValueBytes).lookup ⟨req.method, req.path⟩ = plain
    at related nothing ⊢
  cases related with
  | none =>
      rw [nothing rfl]
      exact ⟨rfl, rfl, keeps⟩
  | @some handler plain implements =>
      have kept : Keeps maxValueBytes (identified library req ({}, world, registry)).2.1 puts := by
        constructor
        · rw [identified_service]
          exact keeps.holds
        · rw [identified_service]
          exact keeps.bound
      obtain ⟨said, headers, keeps⟩ := implements req (identified library req ({}, world, registry)).1
        (identified library req ({}, world, registry)).2.1 registry puts rfl kept
      exact ⟨said, congrArg NodeMap.nodes headers, keeps⟩

end Route

section Headers

variable {hash : Bytes → Nat} {externals : KvExternals} {library : Library} {maxValueBytes : Nat}
  {req : Request Details} {world : KvWorld hash}

theorem unsignedText_length (n : UInt64) : (unsignedText n).length ≤ 20 := by
  rw [unsignedText, decimal, List.length_map, Nat.length_toDigits_le_iff (by decide) (by decide)]
  exact Nat.lt_of_lt_of_le n.toNat_lt (by decide)

theorem printed_unsignedText (n : UInt64) : ∀ byte ∈ unsignedText n, 32 < byte.toNat := by
  intro byte member
  have digit := (mem_decimal member).1
  omega

theorem storable_requestId (req : Request Details) (world : KvWorld hash) :
    Storable "x-request-id" (requestId library req world).1 := by
  unfold requestId
  cases given : library.find req.rest.fields "x-request-id" with
  | some value => exact library.find_storable given
  | none =>
      have now := unsignedText_length world.micros.head
      have number := unsignedText_length world.seq
      refine storable_text (by decide) ?_ ?_
      · rw [makeRequestId, List.length_append, List.length_append,
          show (ascii "-").length = 1 from rfl]
        omega
      · simp only [makeRequestId, List.forall_mem_append]
        exact ⟨⟨printed_unsignedText _, by decide +kernel⟩, printed_unsignedText _⟩

/-- The headers of the service are none of those the server sets. -/
theorem plain_headersOf {resp : Http.Response}
    (headers : resp.headers.nodes = headersOf library req world externals maxValueBytes) :
    resp.Plain ∧ resp.header "Content-Type" = none ∧ resp.header "traceparent" = none ∧
      ((plainHandler externals maxValueBytes req).isSome →
        ("x-request-id", (requestId library req world).1) ∈ resp.headers.nodes) := by
  have names : folded "x-request-id" ≠ folded "x-trace-id" ∧
      folded "x-request-id" ≠ folded "x-span-id" ∧ folded "x-trace-id" ≠ folded "x-span-id" := by
    decide +kernel
  have others : ∀ name ∈ ["x-request-id", "x-trace-id", "x-span-id"],
      folded name ≠ folded "Content-Type" ∧ folded name ≠ folded "traceparent" := by
    decide +kernel
  simp only [List.forall_mem_cons] at others
  obtain ⟨⟨id, id'⟩, ⟨traceId, traceId'⟩, ⟨spanId, spanId'⟩, -⟩ := others
  unfold Response.Plain
  rw [resp.header_eq_none, resp.header_eq_none, headers, headersOf]
  split
  · refine ⟨?_, ?_, ?_, fun _ => List.mem_cons_self⟩
    · simp [names]
    · simp only [List.forall_mem_cons]
      exact ⟨id, traceId, spanId, by simp⟩
    · simp only [List.forall_mem_cons]
      exact ⟨id', traceId', spanId', by simp⟩
  · rename_i missing
    exact ⟨.nil, by simp, by simp, fun routed => absurd routed missing⟩

/-- They are stored as they are, when the ids of the trace are hexadecimal. -/
theorem storable_headersOf
    (ids : (req.rest.trace.traceId.length = 32 ∧ ∀ c ∈ req.rest.trace.traceId, isLowerHex c) ∧
      req.rest.trace.spanId.length = 16 ∧ ∀ c ∈ req.rest.trace.spanId, isLowerHex c) :
    ∀ header ∈ headersOf library req world externals maxValueBytes,
      Storable header.1 header.2 := by
  obtain ⟨⟨traceLength, traceHex⟩, spanLength, spanHex⟩ := ids
  unfold headersOf
  split
  · simp only [List.forall_mem_cons]
    refine ⟨storable_requestId req world, ?_, ?_, by simp⟩
    · exact storable_hex (by decide) (by omega) traceHex
    · exact storable_hex (by decide) (by omega) spanHex
  · simp

theorem storable_json : Storable "Content-Type" "application/json; charset=utf-8" := by
  decide +kernel

theorem storable_plain : Storable "Content-Type" "text/plain; charset=utf-8" := by decide +kernel

theorem storable_exposition :
    Storable "Content-Type" "text/plain; version=0.0.4; charset=utf-8" := by
  decide +kernel

/-- Every answer can be written. -/
theorem writable (req : Request Details) (puts : List (Bytes × Bytes))
    (registry : MetricsRegistry ℚ) :
    (plainAnswer externals maxValueBytes req puts registry).Writable := by
  have json_ {status : UInt32} (bodied : MayHaveBody status) (members : List (Bytes × JsonValue)) :
      (json externals status members).Writable :=
    ⟨bodied, storable_json⟩
  have put : (plainPut externals maxValueBytes req puts registry).Writable := by
    unfold plainPut asksPut
    dsimp only
    split
    · rename_i refusal
      split at refusal
      · cases refusal
        exact json_ (by decide) _
      · split_ifs at refusal <;> cases refusal <;> exact json_ (by decide) _
    · exact json_ (by decide) _
  have get : (plainGet externals req puts registry).Writable := by
    unfold plainGet
    dsimp only
    split
    · exact json_ (by decide) _
    · split <;> exact json_ (by decide) _
  have ok : MayHaveBody 200 := by decide
  have rows : ∀ row ∈ plainRows externals maxValueBytes, (row.2 req puts registry).Writable := by
    simp only [plainRows, List.forall_mem_cons]
    exact ⟨⟨ok, storable_plain⟩, json_ ok _, get, put, json_ ok _, ⟨ok, storable_exposition⟩,
      by simp⟩
  unfold plainAnswer
  cases found : plainHandler externals maxValueBytes req with
  | none => exact ⟨show MayHaveBody 404 by decide, storable_json⟩
  | some plain =>
      obtain ⟨before, after, split, -⟩ := List.lookup_eq_some_iff.mp found
      exact rows (⟨req.method, req.path⟩, plain) (by simp [split])

end Headers

section Run

variable {hash : Bytes → Nat} (externals : KvExternals) (library : Library) (maxValueBytes : Nat)
  (random : Stream' UInt8)

/-- A response that one plain map would have given after the requests before, with the trace of
the request or the root of the next random bytes. The registry is what these requests have made
of it, and counts them. -/
structure AnsweredPlainly (before : List Exchange) (exchange : Exchange) : Prop where
  answer : Answer.on library exchange.wire =
    some (plainAnswer externals maxValueBytes
      (requestOf exchange.message (traceAfter library random before exchange.message))
      (putsOf externals maxValueBytes before) (measured before))
  traced : library.find exchange.wire.fields "traceparent" =
    some (text (traceAfter library random before exchange.message).toTraceParent)
  counted : ∀ path status, newline ∉ path →
    requestCount (measured before) (requestsKey path status) =
      tally Int64.ofNat (answered path status before)
  echoed : ∀ id, (plainHandler externals maxValueBytes
      (requestOf exchange.message (traceAfter library random before exchange.message))).isSome →
    library.find exchange.message.fields "x-request-id" = some id →
    library.find exchange.wire.fields "x-request-id" = some id

/-- A service that has answered every request like one plain map. -/
structure Plainly (user : ServiceState (KvWorld hash)) : Prop where
  alive : user.terminated = false
  keeps : Keeps maxValueBytes user.world (putsOf externals maxValueBytes user.exchanges)
  counted : Counted user
  left : user.random = random.drop (24 * untraced library user.exchanges)
  explained : ∀ (index : Nat) exchange, user.exchanges[index]? = some exchange →
    AnsweredPlainly externals library maxValueBytes random (user.exchanges.take index) exchange

variable {externals maxValueBytes library random}

theorem putsOf_concat (exchanges : List Exchange) (exchange : Exchange) :
    putsOf externals maxValueBytes (exchanges ++ [exchange]) =
      (putOf externals maxValueBytes exchange.message.method
        (text (extractPath exchange.message.target)) exchange.message.body).toList ++
        putsOf externals maxValueBytes exchanges := by
  rw [putsOf, putsOf, List.filterMap_append, List.reverse_append]
  congr 1
  cases putted : putOf externals maxValueBytes exchange.message.method
      (text (extractPath exchange.message.target)) exchange.message.body with
  | none => simp [putted]
  | some entry => simp [putted]

/-- A request that the service serves. -/
theorem Keeps.serves {user : ServiceState (KvWorld hash)} {message : Message}
    {trace : TraceContext} {resp : Http.Response} {world : KvWorld hash}
    {registry : MetricsRegistry ℚ} {rest : Stream' UInt8}
    (keeps : Keeps maxValueBytes user.world (putsOf externals maxValueBytes user.exchanges))
    (served : serve library (router externals library) message user =
      (trace, (resp, world, registry), rest)) :
    Answer.of resp = plainAnswer externals maxValueBytes (requestOf message trace)
      (putsOf externals maxValueBytes user.exchanges) user.metrics ∧
    resp.headers.nodes =
      headersOf library (requestOf message trace) user.world externals maxValueBytes ∧
    registry = user.metrics ∧
    Keeps maxValueBytes world ((putOf externals maxValueBytes message.method
      (text (extractPath message.target)) message.body).toList ++
        putsOf externals maxValueBytes user.exchanges) := by
  have routed := (serve_eq library (router externals library) served).2
  have plain := route_plain library (requestOf message trace) user.world user.metrics externals keeps
  have quiet := router_quiet externals library (requestOf message trace)
    ({}, user.world, user.metrics)
  rw [← routed] at plain quiet
  exact ⟨plain.1, plain.2.1, quiet, plain.2.2⟩

/-- What the service says of one more request. -/
theorem Plainly.answers {user after : ServiceState (KvWorld hash)} {exchange : Exchange}
    {trace : TraceContext} {resp : Http.Response} {registry : MetricsRegistry ℚ}
    (plainly : Plainly externals library maxValueBytes random user)
    (answers : Answers library (router externals library) user after exchange trace resp registry) :
    Plainly externals library maxValueBytes random after := by
  obtain ⟨said, headers, -, keeps⟩ := plainly.keeps.serves answers.served
  obtain ⟨plain, noType, noTrace, id⟩ := plain_headersOf headers
  obtain ⟨drew, left⟩ := random_left plainly.left answers
  have explains : AnsweredPlainly externals library maxValueBytes random user.exchanges
      exchange := by
    constructor
    · rw [← drew, ← plainly.counted.metrics, ← said]
      refine Answer.on_built ?_ noType answers.built
      rw [said]
      exact writable _ _ _
    · rw [← drew]
      exact respond_traceparent answers.built (storable_toTraceParent trace) noTrace
    · exact fun path status whole => requestCount_measured plainly.counted.plain whole status
    · intro given routed asked
      rw [← drew] at routed
      have echoed : (requestId library (requestOf exchange.message trace) user.world).1 = given := by
        rw [requestId, show library.find (requestOf exchange.message trace).rest.fields
          "x-request-id" = some given from asked]
      rw [← echoed]
      exact respond_header answers.built (by decide +kernel) plain (id routed)
        (storable_requestId _ _) rfl
  refine ⟨answers.terminated.trans plainly.alive, ?_,
    plainly.counted.answers (router_quiet externals library) answers, left, ?_⟩
  · rw [answers.exchanges, putsOf_concat]
    exact keeps
  · rw [answers.exchanges]
    exact ListSet.each_concat plainly.explained explains

theorem plainly_rule : Rule library (router externals library)
    (@Plainly hash externals library maxValueBytes random) where
  ignores _ _ plainly :=
    ⟨plainly.alive, plainly.keeps, ⟨plainly.counted.metrics, plainly.counted.plain⟩,
      plainly.left, plainly.explained⟩
  answers plainly answers := plainly.answers answers
  throws := by
    intro user message trace state rest plainly served unbuilt
    obtain ⟨resp, world, registry⟩ := state
    obtain ⟨said, headers, -, -⟩ := plainly.keeps.serves served
    have written : (Answer.of resp).Writable := by
      rw [said]
      exact writable _ _ _
    have ids := @traceOf_ids library message user.random
    dsimp only at ids
    rw [← (serve_eq library (router externals library) served).1] at ids
    have storable : ∀ header ∈ resp.headers.nodes, Storable header.1 header.2 := by
      rw [headers]
      exact storable_headersOf ids
    have built := @Answer.Writable.isSome library message trace resp written storable
    rw [unbuilt] at built
    cases built

end Run

section Served

/-- The service as it starts, with nothing stored. -/
def opened {hash : Bytes → Nat} (shards maxValueBytes : Nat) (seq : UInt64)
    (micros : Stream' UInt64) : KvWorld hash where
  service := ⟨.new shards, maxValueBytes⟩
  seq
  micros

theorem plainly_start {hash : Bytes → Nat} {externals : KvExternals} {library : Library}
    {maxValueBytes : Nat} (shards : Nat) (seq : UInt64) (micros : Stream' UInt64)
    (random : Stream' UInt8) :
    Plainly externals library maxValueBytes random
      { world := @opened hash shards maxValueBytes seq micros, random } :=
  ⟨rfl, ⟨ShardedKvStore.holds_new shards, rfl⟩, counted_start _ random, rfl, by simp⟩

open Transition in
/-- In every run of the service, however its sessions take turns, each request is answered as
one plain map would have answered it after the requests handled before, and the process goes on.
The number of shards and the hash of keys never show. -/
theorem kv_served_plainly (hash : Bytes → Nat) (externals : KvExternals) (library : Library)
    (shards maxValueBytes : Nat) (seq : UInt64) (micros : Stream' UInt64) (random : Stream' UInt8)
    (events : List (EventPool.Event SessionCompletion ℚ)) (loop : ServiceLoop (KvWorld hash))
    (reached : run (program library (router externals library)).step
      (start (opened shards maxValueBytes seq micros) random) events = some loop) :
    loop.user.terminated = false ∧
    ∀ (index : Nat) exchange, loop.user.exchanges[index]? = some exchange →
      AnsweredPlainly externals library maxValueBytes random (loop.user.exchanges.take index)
        exchange := by
  have plainly := plainly_rule.run (plainly_start shards seq micros random) reached
  exact ⟨plainly.alive, plainly.explained⟩

/-- A JSON library that reads one text, and dumps the names of the members. -/
def names : KvExternals where
  parse := KvService.reads KvService.plainText KvService.plainRoot
  dump members := text (members.flatMap Prod.fst)
  numbers := ⟨fun _ => [], fun _ => [], fun _ => List.not_mem_nil, fun _ => List.not_mem_nil⟩
  walk := MetricsRegistry.allocated

def putting : Message where
  method := .post
  target := ascii "/put"
  body := KvService.plainText

def getting : Message where
  method := .get
  target := ascii "/stats"
  fields := [("X-Request-ID", "mine")]

/-- A put on one session, and what the other one reads of it. -/
def putAndRead : List (EventPool.Event SessionCompletion ℚ) :=
  [.complete (.accepted false), .dispatch 0 0, .complete (.accepted false), .dispatch 0 0,
    .complete (.read 1 (.message putting)), .dispatch 0 3,
    .complete (.read 0 (.message getting)), .dispatch 0 2]

theorem kv_served_plainly_put_and_read : ∃ loop exchange,
    Transition.run (program backwards (@router (fun _ => 7) names backwards)).step
      (start (opened 64 4096 0 (Stream'.const 1)) (Stream'.const 7)) putAndRead = some loop ∧
    loop.user.terminated = false ∧ loop.user.exchanges[1]? = some exchange ∧
    AnsweredPlainly names backwards 4096 (Stream'.const 7) (loop.user.exchanges.take 1)
      exchange := by
  have runs : (Transition.run (program backwards (@router (fun _ => 7) names backwards)).step
      (start (opened 64 4096 0 (Stream'.const 1)) (Stream'.const 7)) putAndRead).any
        (·.user.exchanges.length = 2) := by
    decide +kernel
  obtain ⟨loop, reached, two⟩ := (Option.any_eq_true _ _).mp runs
  obtain ⟨alive, explained⟩ := kv_served_plainly (fun _ => 7) names backwards 64 4096 0
    (Stream'.const 1) (Stream'.const 7) putAndRead loop reached
  have inside : 1 < loop.user.exchanges.length := by
    have two := of_decide_eq_true two
    omega
  have found := List.getElem?_eq_getElem inside
  exact ⟨loop, loop.user.exchanges[1], reached, alive, found, explained 1 _ found⟩

end Served

end KvServer

end Chmicro
