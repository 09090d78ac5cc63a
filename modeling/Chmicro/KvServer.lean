import Chmicro.CNumbers
import Chmicro.HttpSession
import Chmicro.KvService
import Chmicro.RouterComposition

set_option autoImplicit false

namespace Chmicro

open Http NextChain

/-- What the handlers share: the store, the sequence number of the request ids, and the
microseconds that the steady clock will read. -/
structure KvWorld (hash : Bytes → Nat) where
  service : KvService hash
  seq : UInt64 := 0
  micros : Stream' UInt64

/-- The JSON library, and how the standard library prints numbers and walks the maps of the
default registry. -/
structure KvExternals where
  parse : Bytes → Option JsonMembers
  dump : List (Bytes × JsonValue) → String
  numbers : NumberText ℚ
  walk : (registry : MetricsRegistry ℚ) → registry.IterationOrder

/-- `ToPrometheusText` of the default registry. -/
def KvExternals.expose (externals : KvExternals) (registry : MetricsRegistry ℚ) : String :=
  text (MetricsRegistry.toPrometheusText externals.numbers (externals.walk registry))

namespace KvServer

variable {hash : Bytes → Nat}

abbrev KvState (hash : Bytes → Nat) := State (Shared (KvWorld hash))

abbrev KvHandler (hash : Bytes → Nat) := Handler Details (Shared (KvWorld hash))

/-- `MakeRequestId`. -/
def makeRequestId (world : KvWorld hash) : Bytes × KvWorld hash :=
  let now := world.micros.head
  let s := world.seq
  (unsignedText now ++ ascii "-" ++ unsignedText s,
    { world with micros := world.micros.tail, seq := s + 1 })

/-- The request id of the header, or a new one. -/
def requestId (library : Library) (req : Request Details) (world : KvWorld hash) :
    String × KvWorld hash :=
  match library.find req.rest.fields "x-request-id" with
  | some value => (value, world)
  | none =>
      let (reqId, world) := makeRequestId world
      (text reqId, world)

/-- The one middleware. -/
def identify (library : Library) : Middleware Details (Shared (KvWorld hash)) :=
    fun req (resp, world, metrics) =>
  let (reqId, world) := requestId library req world
  let headers := resp.headers.assign "x-request-id" reqId
  let headers := headers.assign "x-trace-id" (text req.rest.trace.traceId)
  let headers := headers.assign "x-span-id" (text req.rest.trace.spanId)
  .next ({ resp with headers }, world, metrics) .ret

section Handlers

variable (externals : KvExternals)

/-- `SetJson`, with the body dumped. -/
def send (answer : KvService.Response) (resp : Response) : Response :=
  { resp with
    status := answer.status.toUInt32
    contentType := text answer.contentType
    body := externals.dump answer.body }

def sendText (contentType body : String) (resp : Response) : Response :=
  { resp with status := 200, contentType, body }

def health : KvHandler hash := fun _ (resp, shared) =>
  (sendText "text/plain; charset=utf-8" "ok" resp, shared)

def stats : KvHandler hash := fun _ (resp, world, metrics) =>
  let j := [(ascii "keys", JsonValue.integer world.service.store.size)]
  (send externals (KvService.setJson j 200) resp, world, metrics)

def get : KvHandler hash := fun req (resp, world, metrics) =>
  (send externals (world.service.get req.rest.query req.rest.trace) resp, world, metrics)

def put : KvHandler hash := fun req (resp, world, metrics) =>
  let (answer, service) := world.service.put externals.parse req.rest.body
  (send externals answer resp, { world with service }, metrics)

/-- The number of rounds that are asked for. What they compute is thrown away. -/
def iterations (query : NodeMap Bytes Bytes) : UInt64 :=
  let s := Http.query query (ascii "iters")
  if s ≠ [] then strtoull s else 10000

def compute : KvHandler hash := fun req (resp, shared) =>
  let iters := iterations req.rest.query
  let j := [(ascii "ok", JsonValue.boolean true), (ascii "iters", .integer iters.toInt64.toInt)]
  (send externals (KvService.setJson j 200) resp, shared)

def metrics : KvHandler hash := fun _ (resp, world, metrics) =>
  (sendText "text/plain; version=0.0.4; charset=utf-8" (externals.expose metrics) resp,
    world, metrics)

variable (library : Library)

def registrations : List (Registration Details (Shared (KvWorld hash))) :=
  [.use (identify library), .addRoute .get "/health" health, .addRoute .get "/stats" (stats externals),
    .addRoute .get "/get" (get externals), .addRoute .post "/put" (put externals),
    .addRoute .get "/compute" (compute externals), .addRoute .get "/metrics" (metrics externals)]

/-- The router of the service. -/
def router : Router Details (Shared (KvWorld hash)) :=
  Registration.build (registrations externals library)

end Handlers

end KvServer

end Chmicro
