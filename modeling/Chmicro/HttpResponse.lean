import Chmicro.HttpFields
import Chmicro.Router
import Chmicro.Trace

set_option autoImplicit false

namespace Chmicro.Http

/-- A request as the network library has read it. -/
structure Message where
  method : Verb
  target : Bytes
  version : Nat := 11
  fields : Fields := []
  body : Bytes := []

/-- A response as it is written. -/
structure WireResponse where
  status : UInt32
  version : Nat
  fields : Fields
  body : String
  deriving DecidableEq

/-- Not one of 1xx, 204 and 304. -/
def MayHaveBody (status : UInt32) : Prop :=
  ¬ (100 ≤ status ∧ status < 200) ∧ status ≠ 204 ∧ status ≠ 304

instance (status : UInt32) : Decidable (MayHaveBody status) := inferInstanceAs (Decidable (_ ∧ _))

/-- The messages of the network library, and the order in which the standard library walks an
unordered map. What throws has no result. -/
structure Library where
  find : Fields → String → Option String
  set : Fields → String → String → Option Fields
  keepAlive : Nat → Fields → Bool
  setKeepAlive : Nat → Fields → Bool → Fields
  preparePayload : WireResponse → Option WireResponse
  needEof : WireResponse → Bool
  iterate : NodeMap String String → List (String × String)
  find_nil : ∀ name, find [] name = none
  find_storable : ∀ {fields name value}, find fields name = some value → Storable name value
  set_storable : ∀ {name value}, Storable name value → ∀ fields, (set fields name value).isSome
  /-- Names are compared without regard to case. -/
  find_set_self : ∀ {fields after name value other}, set fields name value = some after →
    Storable name value → folded name = folded other → find after other = some value
  find_set_ne : ∀ {fields after name value other}, set fields name value = some after →
    folded name ≠ folded other → find after other = find fields other
  find_setKeepAlive : ∀ {version fields on name}, folded "Connection" ≠ folded name →
    find (setKeepAlive version fields on) name = find fields name
  prepared : ∀ {out wire}, preparePayload out = some wire →
    wire.status = out.status ∧ wire.version = out.version ∧ wire.body = out.body
  /-- The length of the body is set, and a chunked encoding dropped. -/
  find_prepared : ∀ {out wire name}, preparePayload out = some wire →
    folded "Content-Length" ≠ folded name → folded "Transfer-Encoding" ≠ folded name →
    find wire.fields name = find out.fields name
  prepares : ∀ {out}, MayHaveBody out.status → (preparePayload out).isSome
  iterated : ∀ headers, (iterate headers).Perm headers.nodes

namespace Library

variable (library : Library)

/-- The loop over the headers of a response. -/
def setAll (fields : Fields) (headers : List (String × String)) : Option Fields :=
  headers.foldlM (fun fields header => library.set fields header.1 header.2) fields

/-- The response that `OnRead` writes. -/
def respond (message : Message) (trace : TraceContext) (resp : Response) : Option WireResponse := do
  let fields := library.setKeepAlive message.version []
    (library.keepAlive message.version message.fields)
  let fields ← library.set fields "Server" "chmicro/0.1"
  let fields ← library.set fields "Content-Type" resp.contentType
  let fields ← library.set fields "traceparent" (text trace.toTraceParent)
  let fields ← library.setAll fields (library.iterate resp.headers)
  library.preparePayload
    { status := resp.status, version := message.version, fields, body := resp.body }

section SetAll

variable {library} {fields after : Fields} {headers : List (String × String)} {name : String}

theorem setAll_cons {header : String × String} :
    library.setAll fields (header :: headers) = some after ↔
      ∃ next, library.set fields header.1 header.2 = some next ∧
        library.setAll next headers = some after := by
  rw [setAll, List.foldlM_cons, Option.bind_eq_bind, Option.bind_eq_some_iff]
  rfl

theorem find_setAll_ne (all : library.setAll fields headers = some after)
    (other : ∀ header ∈ headers, folded header.1 ≠ folded name) :
    library.find after name = library.find fields name := by
  induction headers generalizing fields with
  | nil =>
      cases all
      rfl
  | cons header rest ih =>
      rw [List.forall_mem_cons] at other
      obtain ⟨next, set_, rest_⟩ := setAll_cons.mp all
      rw [ih rest_ other.2, library.find_set_ne set_ other.1]

/-- A field that is set, and not replaced by a later one. -/
theorem find_setAll (all : library.setAll fields headers = some after)
    (apart : headers.Pairwise fun first second => folded first.1 ≠ folded second.1)
    {header : String × String} (member : header ∈ headers) (storable : Storable header.1 header.2)
    (same : folded header.1 = folded name) : library.find after name = some header.2 := by
  induction headers generalizing fields with
  | nil => cases member
  | cons first rest ih =>
      obtain ⟨different, apart⟩ := List.pairwise_cons.mp apart
      obtain ⟨next, set_, rest_⟩ := setAll_cons.mp all
      rcases List.mem_cons.mp member with rfl | later
      · rw [find_setAll_ne rest_ fun other listed => same ▸ (different other listed).symm]
        exact library.find_set_self set_ storable same
      · exact ih rest_ apart later

theorem setAll_isSome (storable : ∀ header ∈ headers, Storable header.1 header.2)
    (fields : Fields) : (library.setAll fields headers).isSome := by
  induction headers generalizing fields with
  | nil => rfl
  | cons header rest ih =>
      rw [List.forall_mem_cons] at storable
      obtain ⟨next, set_⟩ := Option.isSome_iff_exists.mp (library.set_storable storable.1 fields)
      obtain ⟨after, rest_⟩ := Option.isSome_iff_exists.mp (ih storable.2 next)
      rw [setAll_cons.mpr ⟨next, set_, rest_⟩]
      rfl

end SetAll

end Library

/-- A header of the response, whatever the case of its name. -/
def Response.header (resp : Response) (name : String) : Option String :=
  (resp.headers.nodes.find? fun header => folded header.1 = folded name).map Prod.snd

theorem Response.header_eq_none (resp : Response) {name : String} :
    resp.header name = none ↔ ∀ header ∈ resp.headers.nodes, folded header.1 ≠ folded name := by
  rw [header, Option.map_eq_none_iff, List.find?_eq_none]
  simp only [decide_eq_true_eq, ne_eq]

/-- No two headers differ in the case of their names only. -/
def Response.Plain (resp : Response) : Prop :=
  resp.headers.nodes.Pairwise fun first second => folded first.1 ≠ folded second.1

instance (resp : Response) : Decidable resp.Plain :=
  inferInstanceAs (Decidable (List.Pairwise _ _))

/-- What the server says where the headers of the response say nothing. -/
def ownField (trace : TraceContext) (resp : Response) (name : String) : Option String :=
  if folded "traceparent" = folded name then some (text trace.toTraceParent)
  else if folded "Content-Type" = folded name then some resp.contentType
  else if folded "Server" = folded name then some "chmicro/0.1"
  else none

/-- A field that the connection or the body of the response decides. -/
def Framing (name : String) : Prop :=
  folded name ∈ ["Connection", "Content-Length", "Transfer-Encoding"].map folded

instance (name : String) : Decidable (Framing name) := inferInstanceAs (Decidable (_ ∈ _))

section Respond

variable {library : Library} {message : Message} {trace : TraceContext} {resp : Response}

/-- The texts that the server sets by itself. -/
structure OwnStorable (trace : TraceContext) (resp : Response) : Prop where
  typed : Storable "Content-Type" resp.contentType
  traced : Storable "traceparent" (text trace.toTraceParent)

theorem storable_server : Storable "Server" "chmicro/0.1" := by decide +kernel

/-- The steps of a response that is built. -/
theorem respond_eq_some {wire : WireResponse} :
    library.respond message trace resp = some wire ↔
      ∃ server typed traced fields,
        library.set (library.setKeepAlive message.version []
          (library.keepAlive message.version message.fields)) "Server" "chmicro/0.1" = some server ∧
        library.set server "Content-Type" resp.contentType = some typed ∧
        library.set typed "traceparent" (text trace.toTraceParent) = some traced ∧
        library.setAll traced (library.iterate resp.headers) = some fields ∧
        library.preparePayload
          { status := resp.status, version := message.version, fields, body := resp.body } =
            some wire := by
  simp only [Library.respond, Option.bind_eq_bind, Option.bind_eq_some_iff]
  constructor
  · rintro ⟨server, first, typed, second, traced, third, fields, fourth, built⟩
    exact ⟨server, typed, traced, fields, first, second, third, fourth, built⟩
  · rintro ⟨server, typed, traced, fields, first, second, third, fourth, built⟩
    exact ⟨server, first, typed, second, traced, third, fields, fourth, built⟩

theorem respond_kept {wire : WireResponse} (built : library.respond message trace resp = some wire) :
    wire.status = resp.status ∧ wire.version = message.version ∧ wire.body = resp.body := by
  obtain ⟨_, _, _, _, -, -, -, -, prepared⟩ := respond_eq_some.mp built
  exact library.prepared prepared

/-- A response that may have a body, and says nothing that cannot be stored, is always built. -/
theorem respond_isSome (bodied : MayHaveBody resp.status) (own : OwnStorable trace resp)
    (headers : ∀ header ∈ resp.headers.nodes, Storable header.1 header.2) :
    (library.respond message trace resp).isSome := by
  have walked : ∀ header ∈ library.iterate resp.headers, Storable header.1 header.2 :=
    fun header member => headers header ((library.iterated _).mem_iff.mp member)
  obtain ⟨server, first⟩ := Option.isSome_iff_exists.mp (library.set_storable storable_server _)
  obtain ⟨typed, second⟩ := Option.isSome_iff_exists.mp (library.set_storable own.typed server)
  obtain ⟨traced, third⟩ := Option.isSome_iff_exists.mp (library.set_storable own.traced typed)
  obtain ⟨fields, fourth⟩ := Option.isSome_iff_exists.mp (Library.setAll_isSome walked traced)
  obtain ⟨wire, built⟩ := Option.isSome_iff_exists.mp (@Library.prepares library
    { status := resp.status, version := message.version, fields, body := resp.body } bodied)
  rw [respond_eq_some.mpr ⟨server, typed, traced, fields, first, second, third, fourth, built⟩]
  rfl

variable {wire : WireResponse} (built : library.respond message trace resp = some wire)
  {name : String} (unframed : ¬ Framing name)

include built unframed

theorem respond_header (plain : resp.Plain) {header : String × String}
    (member : header ∈ resp.headers.nodes) (storable : Storable header.1 header.2)
    (same : folded header.1 = folded name) : library.find wire.fields name = some header.2 := by
  obtain ⟨_, _, _, fields, -, -, -, all, prepared⟩ := respond_eq_some.mp built
  simp only [Framing, List.map_cons, List.map_nil, List.mem_cons, List.not_mem_nil, or_false,
    not_or] at unframed
  rw [library.find_prepared prepared (Ne.symm unframed.2.1) (Ne.symm unframed.2.2)]
  have walked := library.iterated resp.headers
  refine Library.find_setAll all ?_ (walked.mem_iff.mpr member) storable same
  exact (walked.pairwise_iff fun different => Ne.symm different).mpr plain

/-- Where no header of the response says it, the server does. -/
theorem respond_unset (unset : resp.header name = none) :
    ∃ server typed traced,
      library.set (library.setKeepAlive message.version []
        (library.keepAlive message.version message.fields)) "Server" "chmicro/0.1" = some server ∧
      library.set server "Content-Type" resp.contentType = some typed ∧
      library.set typed "traceparent" (text trace.toTraceParent) = some traced ∧
      library.find wire.fields name = library.find traced name := by
  obtain ⟨server, typed, traced, fields, first, second, third, all, prepared⟩ :=
    respond_eq_some.mp built
  refine ⟨server, typed, traced, first, second, third, ?_⟩
  simp only [Framing, List.map_cons, List.map_nil, List.mem_cons, List.not_mem_nil, or_false,
    not_or] at unframed
  rw [library.find_prepared prepared (Ne.symm unframed.2.1) (Ne.symm unframed.2.2)]
  exact Library.find_setAll_ne all fun header member =>
    resp.header_eq_none.mp unset header ((library.iterated _).mem_iff.mp member)

omit unframed in
theorem respond_traceparent (storable : Storable "traceparent" (text trace.toTraceParent))
    (unset : resp.header "traceparent" = none) :
    library.find wire.fields "traceparent" = some (text trace.toTraceParent) := by
  obtain ⟨_, _, _, -, -, traced, same⟩ := respond_unset built (by decide +kernel) unset
  rw [same, library.find_set_self traced storable rfl]

omit unframed in
theorem respond_contentType (storable : Storable "Content-Type" resp.contentType)
    (unset : resp.header "Content-Type" = none) :
    library.find wire.fields "Content-Type" = some resp.contentType := by
  obtain ⟨_, _, _, -, typed, traced, same⟩ := respond_unset built (by decide +kernel) unset
  rw [same, library.find_set_ne traced (by decide +kernel),
    library.find_set_self typed storable rfl]

theorem respond_own (own : OwnStorable trace resp) (unset : resp.header name = none) :
    library.find wire.fields name = ownField trace resp name := by
  obtain ⟨server, typed, traced, first, second, third, same⟩ :=
    respond_unset built unframed unset
  simp only [Framing, List.map_cons, List.map_nil, List.mem_cons, List.not_mem_nil, or_false,
    not_or] at unframed
  rw [same, ownField]
  by_cases trace_ : folded "traceparent" = folded name
  · rw [if_pos trace_]
    exact library.find_set_self third own.traced trace_
  rw [if_neg trace_, library.find_set_ne third trace_]
  by_cases type_ : folded "Content-Type" = folded name
  · rw [if_pos type_]
    exact library.find_set_self second own.typed type_
  rw [if_neg type_, library.find_set_ne second type_]
  by_cases server_ : folded "Server" = folded name
  · rw [if_pos server_]
    exact library.find_set_self first storable_server server_
  rw [if_neg server_, library.find_set_ne first server_,
    library.find_setKeepAlive (Ne.symm unframed.1), library.find_nil]

end Respond

/-- However the headers are walked, a response says what the handler has said, and what the
server says of it where the handler has not. -/
theorem wire_response_settled (library : Library) (message : Message) (trace : TraceContext)
    (resp : Response) (plain : resp.Plain) (own : OwnStorable trace resp)
    (headers : ∀ header ∈ resp.headers.nodes, Storable header.1 header.2) :
    (MayHaveBody resp.status → (library.respond message trace resp).isSome) ∧
    ∀ wire ∈ library.respond message trace resp,
      wire.status = resp.status ∧ wire.version = message.version ∧ wire.body = resp.body ∧
      ∀ name, ¬ Framing name →
        library.find wire.fields name = (resp.header name).or (ownField trace resp name) := by
  refine ⟨fun bodied => respond_isSome bodied own headers, fun wire built => ?_⟩
  obtain ⟨status, version, body⟩ := respond_kept built
  refine ⟨status, version, body, fun name unframed => ?_⟩
  cases found : resp.header name with
  | some value =>
      obtain ⟨header, here, rfl⟩ := Option.map_eq_some_iff.mp found
      have member := List.mem_of_find?_eq_some here
      have same : folded header.1 = folded name := by simpa using List.find?_some here
      rw [respond_header built unframed plain member (headers header member) same, Option.some_or]
  | none => rw [respond_own built unframed own found, Option.none_or]

section Backwards

/-- The first field of the name. -/
def lookup (fields : Fields) (name : String) : Option String :=
  (fields.find? fun field => folded field.1 = folded name ∧ Storable name field.2).map Prod.snd

/-- Other fields in the place of those of the name. -/
def replace (fields : Fields) (name : String) (others : Fields) : Fields :=
  fields.filter (fun field => folded field.1 ≠ folded name) ++ others

variable {fields others : Fields} {name other value : String}

theorem lookup_replace_self (storable : Storable name value) (same : folded name = folded other) :
    lookup (replace fields name [(name, value)]) other = some value := by
  have gone : (fields.filter fun field => folded field.1 ≠ folded name).find?
      (fun field => folded field.1 = folded other ∧ Storable other field.2) = none := by
    rw [List.find?_eq_none]
    intro field member
    have different := of_decide_eq_true (List.mem_filter.mp member).2
    rw [← same]
    simp [different]
  have length : name.length = other.length := by
    simpa [folded, String.length_toList] using congrArg List.length same
  have fits : Storable other value :=
    ⟨length ▸ storable.short, storable.fits, storable.first, storable.last⟩
  rw [replace, lookup, List.find?_append, gone, Option.none_or, List.find?_singleton,
    decide_eq_true ⟨same, fits⟩]
  rfl

theorem lookup_replace_ne (placed : ∀ field ∈ others, folded field.1 = folded name)
    (different : folded name ≠ folded other) :
    lookup (replace fields name others) other = lookup fields other := by
  have kept : (fields.filter fun field => folded field.1 ≠ folded name).find?
      (fun field => folded field.1 = folded other ∧ Storable other field.2) =
        fields.find? fun field => folded field.1 = folded other ∧ Storable other field.2 := by
    rw [List.find?_filter]
    congr 1
    funext field
    by_cases same : folded field.1 = folded other
    · simp [same, Ne.symm different]
    · simp [same]
  have absent : others.find?
      (fun field => folded field.1 = folded other ∧ Storable other field.2) = none := by
    rw [List.find?_eq_none]
    intro field member
    simp [placed field member, different]
  rw [replace, lookup, lookup, List.find?_append, kept, absent, Option.or_none]

/-- Whether a message keeps its connection, when `Connection` holds one token at most. -/
def keepsOne (version : Nat) (fields : Fields) : Bool :=
  match lookup fields "Connection" with
  | none => !decide (version < 11)
  | some value => if version < 11 then value = "keep-alive" else value ≠ "close"

/-- A library that walks its maps backwards, and refuses blanks instead of stripping them. -/
def backwards : Library where
  find := lookup
  set fields name value :=
    if Storable name value then some (replace fields name [(name, value)]) else none
  keepAlive := keepsOne
  setKeepAlive version fields on := replace fields "Connection" <|
    if version < 11 then if on then [("Connection", "keep-alive")] else []
    else if on then [] else [("Connection", "close")]
  preparePayload out :=
    if ¬ MayHaveBody out.status ∧ out.body ≠ "" then none
    else some { out with
      fields := replace out.fields "Content-Length" [("Content-Length", toString out.body.length)] }
  needEof out :=
    if ¬ MayHaveBody out.status ∨ (lookup out.fields "Content-Length").isSome then
      !keepsOne out.version out.fields
    else true
  iterate headers := headers.nodes.reverse
  find_nil _ := rfl
  find_storable := by
    intro fields name value found
    obtain ⟨field, here, rfl⟩ := Option.map_eq_some_iff.mp found
    have both := List.find?_some here
    exact (of_decide_eq_true both).2
  set_storable storable _ := by rw [if_pos storable, Option.isSome_some]
  find_set_self := by
    intro fields after name value other placed storable same
    rw [if_pos storable] at placed
    rw [← Option.some.inj placed]
    exact lookup_replace_self storable same
  find_set_ne := by
    intro fields after name value other placed different
    split at placed
    · rw [← Option.some.inj placed]
      exact lookup_replace_ne (by simp) different
    · cases placed
  find_setKeepAlive := by
    intro version fields on name different
    refine lookup_replace_ne ?_ different
    split_ifs <;> simp
  prepared := by
    intro out wire built
    split at built
    · cases built
    · rw [← Option.some.inj built]
      exact ⟨rfl, rfl, rfl⟩
  find_prepared := by
    intro out wire name built length _
    split at built
    · cases built
    · rw [← Option.some.inj built]
      exact lookup_replace_ne (by simp) length
  prepares := by
    intro out bodied
    rw [if_neg fun bare => bare.1 bodied, Option.isSome_some]
  iterated headers := headers.nodes.reverse_perm

end Backwards

/-- A response with a trace of its own, that ends the connection. -/
def closing : Response where
  body := "bye"
  headers := (NodeMap.empty.assign "TraceParent" "mine").assign "connection" "close"

theorem wire_response_settled_closing : ∃ wire,
    backwards.respond { method := .get, target := ascii "/" } {} closing = some wire ∧
      wire.body = "bye" ∧ backwards.find wire.fields "traceparent" = some "mine" ∧
      backwards.find wire.fields "content-type" = some "text/plain; charset=utf-8" := by
  obtain ⟨always, settled⟩ := wire_response_settled backwards
    { method := .get, target := ascii "/" } {} closing (by decide +kernel)
    ⟨by decide +kernel, by decide +kernel⟩ (by decide +kernel)
  obtain ⟨wire, built⟩ := Option.isSome_iff_exists.mp (always (by decide))
  obtain ⟨-, -, body, fields⟩ := settled wire built
  refine ⟨wire, built, body, ?_, ?_⟩
  · rw [fields "traceparent" (by decide +kernel)]
    decide +kernel
  · rw [fields "content-type" (by decide +kernel)]
    decide +kernel

end Chmicro.Http
