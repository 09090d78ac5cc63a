import Chmicro.HttpTarget
import Chmicro.KvStore
import Chmicro.Trace

set_option autoImplicit false

namespace Chmicro

/-- The JSON values the service reads and writes, and whatever else it may be sent. -/
inductive JsonValue where
  | string (text : Bytes)
  | integer (value : Int)
  | boolean (value : Bool)
  | other
  deriving DecidableEq

/-- The members of an object that was read, found by their names. -/
abbrev JsonMembers := Bytes → Option JsonValue

def getStringOrDefault (obj : JsonMembers) (key fallback : Bytes) : Bytes :=
  match obj key with
  | some (.string text) => text
  | _ => fallback

namespace KvService

/-- The body is an object, before it is dumped. -/
structure Response where
  status : Nat := 200
  body : List (Bytes × JsonValue) := []
  contentType : Bytes := ascii "text/plain; charset=utf-8"
  deriving DecidableEq

def setJson (j : List (Bytes × JsonValue)) (status : Nat) : Response where
  status := status
  body := j
  contentType := ascii "application/json; charset=utf-8"

end KvService

structure KvService (hash : Bytes → Nat) where
  store : ShardedKvStore hash
  maxValueBytes : Nat

namespace KvService

variable {hash : Bytes → Nat}

/-- What is answered for a key that is stored. -/
def found (key value : Bytes) (trace : TraceContext) : Response :=
  setJson [(ascii "key", .string key), (ascii "value", .string value),
    (ascii "traceparent", .string trace.toTraceParent)] 200

/-- `GET /get`. -/
def get (service : KvService hash) (query : NodeMap Bytes Bytes) (trace : TraceContext) :
    Response :=
  let key := Http.query query (ascii "key")
  if key = [] then
    setJson [(ascii "error", .string (ascii "missing query param: key"))] 400
  else
    let (ok, value) := service.store.get key []
    if ¬ ok then
      setJson [(ascii "error", .string (ascii "not found")), (ascii "key", .string key)] 404
    else found key value trace

/-- `POST /put`. The parser finds no object in some texts. -/
def put (parse : Bytes → Option JsonMembers) (service : KvService hash) (body : Bytes) :
    Response × KvService hash :=
  match parse body with
  | none => (setJson [(ascii "error", .string (ascii "invalid json"))] 400, service)
  | some root =>
      let key := getStringOrDefault root (ascii "key") []
      let value := getStringOrDefault root (ascii "value") []
      if key = [] then
        (setJson [(ascii "error", .string (ascii "missing field: key"))] 400, service)
      else if value.length > service.maxValueBytes then
        (setJson [(ascii "error", .string (ascii "value too large")),
          (ascii "max", .integer service.maxValueBytes)] 413, service)
      else
        (setJson [(ascii "ok", .boolean true)] 200,
          { service with store := service.store.put key value })

/-- A GET request, when its path is that of the handler. -/
def onGet (service : KvService hash) (target : Bytes) (trace : TraceContext) : Option Response :=
  if Http.extractPath target = ascii "/get" then
    some (service.get (Http.parseQuery target .empty) trace)
  else none

section Served

variable {service : KvService hash} {parse : Bytes → Option JsonMembers} {body : Bytes}
  {root : JsonMembers}

/-- What a put that is answered 200 has done. -/
theorem put_ok (parsed : parse body = some root) (answered : (service.put parse body).1.status = 200) :
    getStringOrDefault root (ascii "key") [] ≠ [] ∧
    (service.put parse body).2.store = service.store.put
      (getStringOrDefault root (ascii "key") []) (getStringOrDefault root (ascii "value") []) := by
  unfold put at answered ⊢
  rw [parsed] at answered ⊢
  dsimp only at answered ⊢
  split_ifs at answered ⊢ with empty large
  · exact absurd answered (by simp [setJson])
  · exact absurd answered (by simp [setJson])
  · exact ⟨empty, rfl⟩

theorem get_of_found {query : NodeMap Bytes Bytes} {value : Bytes} (trace : TraceContext)
    (some_ : Http.query query (ascii "key") ≠ [])
    (held : (service.store.shard (Http.query query (ascii "key"))).get?
      (Http.query query (ascii "key")) = some value) :
    service.get query trace = found (Http.query query (ascii "key")) value trace := by
  have read : service.store.get (Http.query query (ascii "key")) [] = (true, value) := by
    rw [ShardedKvStore.get, held]
  unfold get
  dsimp only
  rw [if_neg some_, read]
  rfl

/-- A get that is answered 200 has found the key of its query. -/
theorem found_of_get {query : NodeMap Bytes Bytes} {trace : TraceContext}
    (answered : (service.get query trace).status = 200) :
    ∃ value, (service.store.shard (Http.query query (ascii "key"))).get?
        (Http.query query (ascii "key")) = some value ∧
      service.get query trace = found (Http.query query (ascii "key")) value trace := by
  by_cases empty : Http.query query (ascii "key") = []
  · unfold get at answered
    dsimp only at answered
    rw [if_pos empty] at answered
    exact absurd answered (by simp [setJson])
  · cases held : (service.store.shard (Http.query query (ascii "key"))).get?
        (Http.query query (ascii "key")) with
    | some value => exact ⟨value, rfl, get_of_found trace empty held⟩
    | none =>
        have read : service.store.get (Http.query query (ascii "key")) [] = (false, []) := by
          rw [ShardedKvStore.get, held]
        unfold get at answered
        dsimp only at answered
        rw [if_neg empty, read] at answered
        exact absurd answered (by simp [setJson])

/-- The key of a query is free of ampersands, and made of bytes of the target. -/
theorem key_of_target {target : Bytes} {legal : UInt8 → Prop} (allowed : ∀ byte ∈ target, legal byte) :
    Http.ampersand ∉ Http.query (Http.parseQuery target .empty) (ascii "key") ∧
    ∀ byte ∈ Http.query (Http.parseQuery target .empty) (ascii "key"), legal byte := by
  have both := @Http.forall_query (fun byte => byte ≠ Http.ampersand ∧ legal byte) target
    (ascii "key") fun byte member different => ⟨different, allowed byte member⟩
  exact ⟨fun member => (both _ member).1 rfl, fun byte member => (both byte member).2⟩

/-- Which bytes may stand in a target is the network library's to say. -/
theorem stored_key_served {legal : UInt8 → Prop}
    (spelt : ∀ byte ∈ ascii "/get?key=", legal byte)
    (parsed : parse body = some root) (answered : (service.put parse body).1.status = 200)
    (trace : TraceContext) :
    (∃ target, (∀ byte ∈ target, legal byte) ∧
      (service.put parse body).2.onGet target trace = some
        (found (getStringOrDefault root (ascii "key") [])
          (getStringOrDefault root (ascii "value") []) trace)) ↔
      Http.ampersand ∉ getStringOrDefault root (ascii "key") [] ∧
        ∀ byte ∈ getStringOrDefault root (ascii "key") [], legal byte := by
  obtain ⟨some_, stored⟩ := put_ok parsed answered
  constructor
  · intro ⟨target, allowed, served⟩
    unfold onGet at served
    split_ifs at served with path
    have same := Option.some.inj served
    obtain ⟨value, -, reply⟩ := found_of_get (congrArg Response.status same)
    have keys := congrArg Response.body (reply.symm.trans same)
    have key : Http.query (Http.parseQuery target .empty) (ascii "key") =
        getStringOrDefault root (ascii "key") [] := by
      simpa using (List.cons.inj keys).1
    rw [← key]
    exact key_of_target allowed
  · intro ⟨whole, allowed⟩
    let target := ascii "/get" ++ Http.questionMark ::
      (ascii "key" ++ equalsSign :: getStringOrDefault root (ascii "key") [])
    have spelling : target = ascii "/get?key=" ++ getStringOrDefault root (ascii "key") [] := rfl
    have path : Http.extractPath target = ascii "/get" :=
      Http.extractPath_append _ (by decide +kernel)
    have asked : Http.query (Http.parseQuery target .empty) (ascii "key") =
        getStringOrDefault root (ascii "key") [] :=
      Http.query_single (by decide +kernel) (by decide +kernel) (by decide +kernel) whole
    have held := service.store.get?_put_self (getStringOrDefault root (ascii "key") [])
      (getStringOrDefault root (ascii "value") [])
    rw [← stored] at held
    exists target
    constructor
    · rw [spelling]
      intro byte member
      rcases List.mem_append.mp member with inPath | inKey
      · exact spelt byte inPath
      · exact allowed byte inKey
    · rw [onGet, if_pos path, get_of_found trace (by rw [asked]; exact some_)
        (by rw [asked]; exact held), asked]

/-- An object of the two members that a put reads. -/
def keyAndValue (key value : Bytes) : JsonMembers := fun name =>
  if name = ascii "key" then some (.string key)
  else if name = ascii "value" then some (.string value)
  else none

/-- A parser that has one text to read. -/
def reads (text : Bytes) (root : JsonMembers) (body : Bytes) : Option JsonMembers :=
  if body = text then some root else none

def plainText : Bytes := ascii "\x7b\"key\":\"k\",\"value\":\"v\"\x7d"

def plainRoot : JsonMembers := keyAndValue (ascii "k") (ascii "v")

def fresh : KvService (fun _ => 7) := ⟨.new 64, 4096⟩

theorem stored_key_served_plain : ∃ target, (∀ byte ∈ target, 32 < byte ∧ byte ≠ 127) ∧
    (fresh.put (reads plainText plainRoot) plainText).2.onGet target {} =
      some (found (ascii "k") (ascii "v") {}) := by
  have served := @stored_key_served (fun _ => 7) fresh (reads plainText plainRoot) plainText
    plainRoot (fun byte => 32 < byte ∧ byte ≠ 127) (by decide +kernel) (by rfl) (by rfl) {}
  exact served.mpr (by decide +kernel)

end Served

section Refuted

def ampersandText : Bytes := ascii "\x7b\"key\":\"a&b\",\"value\":\"v\"\x7d"

def ampersandRoot : JsonMembers := keyAndValue (ascii "a&b") (ascii "v")

theorem only_key {shards : Nat} {key value other found : Bytes}
    (held : (((@ShardedKvStore.new hash shards).put key value).shard other).get? other =
      some found) : other = key := by
  by_contra different
  rw [ShardedKvStore.get?_put_ne _ key value (Ne.symm different), ShardedKvStore.shard_new] at held
  exact absurd held (by simp [NodeMap.get?, NodeMap.find, NodeMap.empty])

/-- The key `a&b` is stored, and its value is out of reach. -/
theorem ampersand_key_lost :
    (fresh.put (reads ampersandText ampersandRoot) ampersandText).1.status = 200 ∧
    ¬ ∃ target trace reply,
      (fresh.put (reads ampersandText ampersandRoot) ampersandText).2.onGet target trace =
        some reply ∧ reply.status = 200 ∧ (ascii "value", .string (ascii "v")) ∈ reply.body := by
  have answered :
      (fresh.put (reads ampersandText ampersandRoot) ampersandText).1.status = 200 := rfl
  constructor
  · exact answered
  intro ⟨target, trace, reply, served, ok, _⟩
  have stored := (put_ok (by rfl) answered).2
  unfold onGet at served
  split_ifs at served
  rw [← Option.some.inj served] at ok
  obtain ⟨value, held, -⟩ := found_of_get ok
  rw [stored] at held
  have key := only_key held
  have whole := (@key_of_target target (fun _ => True) fun _ _ => trivial).1
  rw [key] at whole
  exact whole (by decide +kernel)

end Refuted

end KvService

end Chmicro
