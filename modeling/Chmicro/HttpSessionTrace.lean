import Chmicro.HttpSessionProtocol
import Chmicro.ListSet
import Chmicro.TraceCodec
import Chmicro.TraceSpans

set_option autoImplicit false

namespace Chmicro.Http.HttpSession

open EventLoop TraceContext

variable (library : Library)

/-- The trace that a request asks to be part of. -/
def carried (message : Message) : TraceContext :=
  match library.find message.fields "traceparent" with
  | some value => parseTraceParent (ascii value)
  | none => {}

/-- The requests for which a root is drawn. -/
def untraced (exchanges : List Exchange) : Nat :=
  exchanges.countP fun exchange => !(carried library exchange.message).valid

theorem untraced_concat (exchanges : List Exchange) (exchange : Exchange) :
    untraced library (exchanges ++ [exchange]) =
      untraced library exchanges + if (carried library exchange.message).valid then 0 else 1 := by
  rw [untraced, untraced, List.countP_append, List.countP_singleton]
  cases (carried library exchange.message).valid <;> rfl

theorem traceOf_eq (message : Message) (random : Stream' UInt8) :
    traceOf library message random =
      if (carried library message).valid then (carried library message, random)
      else (drawnRoot random, random.drop 24) := by
  have own : traceOf library message random =
      if ¬ (carried library message).valid then newRoot random
      else (carried library message, random) := rfl
  rw [own, newRoot_eq]
  exact ite_not _ _ _

/-- The trace of a request after these exchanges: its own, or else the root of the next bytes. -/
def traceAfter (random : Stream' UInt8) (before : List Exchange) (message : Message) :
    TraceContext :=
  (traceOf library message (random.drop (24 * untraced library before))).1

/-- The ids of a trace are hexadecimal, whether they were sent or drawn. -/
theorem traceOf_ids (message : Message) (random : Stream' UInt8) :
    let trace := (traceOf library message random).1
    (trace.traceId.length = 32 ∧ ∀ c ∈ trace.traceId, isLowerHex c) ∧
      trace.spanId.length = 16 ∧ ∀ c ∈ trace.spanId, isLowerHex c := by
  dsimp only
  rw [traceOf_eq]
  split
  · rename_i valid
    obtain ⟨trace, span, -⟩ := (valid_iff _).mp valid
    exact ⟨⟨trace.sized, trace.hex⟩, span.sized, span.hex⟩
  · exact ⟨⟨by rw [drawnRoot, hex_length, Stream'.length_take], isLowerHex_hex _⟩,
      by rw [drawnRoot, hex_length, Stream'.length_take], isLowerHex_hex _⟩

/-- The request carries this trace, under any version. -/
def Carries (message : Message) (ctx : TraceContext) : Prop :=
  ctx.valid ∧ ∃ version, HexPair version ∧
    (library.find message.fields "traceparent").map ascii = some (header version ctx)

variable {library}

theorem carried_of_carries {message : Message} {ctx : TraceContext}
    (carries : Carries library message ctx) : carried library message = ctx := by
  obtain ⟨valid, version, pair, given⟩ := carries
  unfold carried
  cases field : library.find message.fields "traceparent" with
  | none =>
      rw [field] at given
      cases given
  | some value =>
      rw [field, Option.map_some] at given
      dsimp only
      rw [Option.some.inj given, parseTraceParent_header pair valid]

theorem carries_of_valid {message : Message} (valid : (carried library message).valid) :
    Carries library message (carried library message) := by
  refine ⟨valid, ?_⟩
  unfold carried at valid ⊢
  cases field : library.find message.fields "traceparent" with
  | none =>
      rw [field] at valid
      cases valid
  | some value =>
      rw [field] at valid
      obtain ⟨version, pair, whole⟩ := header_of_parseTraceParent valid
      exact ⟨version, pair, congrArg some whole⟩

section Storable

theorem printed_of_hex {bytes : Bytes} (hex : ∀ c ∈ bytes, isLowerHex c) :
    ∀ c ∈ bytes, 32 < c.toNat := by
  intro c member
  have digit := hex c member
  simp only [isLowerHex, Bool.or_eq_true, Bool.and_eq_true, decide_eq_true_eq] at digit
  rcases digit with digit | letter
  · exact Nat.lt_of_lt_of_le (by decide) (UInt8.le_iff_toNat_le.mp digit.1)
  · exact Nat.lt_of_lt_of_le (by decide) (UInt8.le_iff_toNat_le.mp letter.1)

/-- Ids that are hexadecimal are stored as they are. -/
theorem storable_hex {name : String} {bytes : Bytes} (short : name.length ≤ 65533)
    (fits : bytes.length ≤ 65533) (hex : ∀ c ∈ bytes, isLowerHex c) :
    Storable name (text bytes) :=
  storable_text short fits (printed_of_hex hex)

theorem storable_toTraceParent (ctx : TraceContext) :
    Storable "traceparent" (text ctx.toTraceParent) := by
  have short : "traceparent".length ≤ 65533 := by decide
  by_cases valid : ctx.valid
  · obtain ⟨trace, span, flags⟩ := (valid_iff ctx).mp valid
    have whole := header_length hexPair_zero valid
    have line : 32 < dash.toNat := by decide
    rw [toTraceParent_valid valid]
    refine storable_text short (by omega) ?_
    simp only [header, List.forall_mem_append, List.forall_mem_cons]
    exact ⟨printed_of_hex hexPair_zero.hex, line, printed_of_hex trace.hex, line,
      printed_of_hex span.hex, line, printed_of_hex flags.hex⟩
  · rw [toTraceParent, if_pos valid]
    exact storable_text short (Nat.zero_le _) (by simp)

end Storable

variable (library)

/-- What the response says of its trace: the trace of the request, or else the next root. -/
structure Traced (random : Stream' UInt8) (before : List Exchange) (exchange : Exchange) :
    Prop where
  handed : ∀ ctx, Carries library exchange.message ctx →
    library.find exchange.wire.fields "traceparent" = some (text (header (ascii "00") ctx))
  drawn : (¬ ∃ ctx, Carries library exchange.message ctx) →
    library.find exchange.wire.fields "traceparent" =
      some (text (drawnRoot (random.drop (24 * untraced library before))).toTraceParent)

variable {World : Type}

/-- The responses so far, and the random bytes that are left. -/
structure TracedSoFar (random : Stream' UInt8) (user : ServiceState World) : Prop where
  left : user.random = random.drop (24 * untraced library user.exchanges)
  each : ∀ index exchange, user.exchanges[index]? = some exchange →
    Traced library random (user.exchanges.take index) exchange

theorem tracedSoFar_start (world : World) (random : Stream' UInt8) :
    TracedSoFar library random { world, random : ServiceState World } where
  left := rfl
  each _ _ found := by cases found

/-- The headers of the handlers leave the trace to the server. -/
def Traceless (router : Router Details (Shared World)) : Prop :=
  ∀ req shared, (router.route req ({}, shared)).1.header "traceparent" = none

section Steps

variable {library} {router : Router Details (Shared World)}

/-- The response to a request names the trace that the handlers have seen. -/
theorem respond_trace (traceless : Traceless router) {message : Message} {trace : TraceContext}
    {user : ServiceState World} {resp : Response} {shared : Shared World} {rest : Stream' UInt8}
    {wire : WireResponse} (served : serve library router message user = (trace, (resp, shared), rest))
    (built : library.respond message trace resp = some wire) :
    library.find wire.fields "traceparent" = some (text trace.toTraceParent) := by
  have routed := (serve_eq library router served).2
  have own := traceless (requestOf message trace) (user.world, user.metrics)
  rw [← routed] at own
  exact respond_traceparent built (storable_toTraceParent trace) own

/-- The bytes that the requests so far have left. -/
theorem random_left {random : Stream' UInt8} {user after : ServiceState World}
    {exchange : Exchange} {trace : TraceContext} {resp : Response} {registry : MetricsRegistry ℚ}
    (left : user.random = random.drop (24 * untraced library user.exchanges))
    (answers : Answers library router user after exchange trace resp registry) :
    trace = traceAfter library random user.exchanges exchange.message ∧
      after.random = random.drop (24 * untraced library after.exchanges) := by
  have drew : traceOf library exchange.message user.random = (trace, after.random) := by
    obtain ⟨same, rest⟩ := Prod.mk.inj answers.served
    exact Prod.ext same (Prod.mk.inj rest).2
  constructor
  · rw [traceAfter, ← left, drew]
  rw [traceOf_eq] at drew
  rw [answers.exchanges, untraced_concat]
  by_cases valid : (carried library exchange.message).valid
  · rw [if_pos valid] at drew
    rw [← (Prod.mk.inj drew).2, left, if_pos valid, Nat.add_zero]
  · rw [if_neg valid] at drew
    rw [← (Prod.mk.inj drew).2, left, Stream'.drop_drop, if_neg valid, Nat.mul_succ]

theorem TracedSoFar.answers {random : Stream' UInt8} {user after : ServiceState World}
    {exchange : Exchange} {trace : TraceContext} {resp : Response} {registry : MetricsRegistry ℚ}
    (traceless : Traceless router) (traced : TracedSoFar library random user)
    (answers : Answers library router user after exchange trace resp registry) :
    TracedSoFar library random after := by
  have named := respond_trace traceless answers.served answers.built
  obtain ⟨drew, left⟩ := random_left traced.left answers
  rw [traceAfter, traceOf_eq] at drew
  refine ⟨left, ?_⟩
  rw [answers.exchanges]
  by_cases valid : (carried library exchange.message).valid
  · rw [if_pos valid] at drew
    refine ListSet.each_concat traced.each ⟨fun ctx carries => ?_, fun none_ => ?_⟩
    · rw [named, drew, carried_of_carries carries, toTraceParent_valid carries.1]
    · exact absurd ⟨_, carries_of_valid valid⟩ none_
  · rw [if_neg valid] at drew
    refine ListSet.each_concat traced.each ⟨fun ctx carries => ?_, fun _ => ?_⟩
    · rw [carried_of_carries carries] at valid
      exact absurd carries.1 valid
    · rw [named, drew]

theorem traced_rule (random : Stream' UInt8) (traceless : Traceless router) :
    Rule library router (TracedSoFar library random) where
  ignores _ _ traced := ⟨traced.left, traced.each⟩
  answers traced answers := traced.answers traceless answers
  throws traced _ _ := ⟨traced.left, traced.each⟩

end Steps

open Transition in
/-- In every run of a server whose handlers leave the trace to it, the response to a request that
carries a trace is part of that trace. Each other one is the root of 24 random bytes of its
own, which are taken in the order in which the sessions' requests are handled. -/
theorem sessions_traced (library : Library) (router : Router Details (Shared World))
    (traceless : Traceless router) (world : World) (random : Stream' UInt8)
    (events : List (EventPool.Event SessionCompletion ℚ)) (loop : ServiceLoop World)
    (reached : run (program library router).step (start world random) events = some loop)
    (index : Nat) (exchange : Exchange)
    (here : loop.user.exchanges[index]? = some exchange) :
    Traced library random (loop.user.exchanges.take index) exchange := by
  have traced := (traced_rule random traceless).run (tracedSoFar_start library world random) reached
  exact traced.each index exchange here

/-- A request with a trace of the version `cc`. -/
def traced : Message where
  method := .get
  target := ascii "/x"
  fields := [("Traceparent", "cc-4bf92f3577b34da6a3ce929d0e0e4736-00f067aa0ba902b7-01")]

/-- A request without a trace. -/
def fresh : Message where
  method := .get
  target := ascii "/y"

/-- Two sessions whose requests are handled in turn. -/
def tracedBetween : List (EventPool.Event SessionCompletion ℚ) :=
  [.complete (.accepted false), .dispatch 0 0, .complete (.accepted false), .dispatch 0 0,
    .complete (.read 1 (.message fresh)), .dispatch 0 1, .complete (.read 0 (.message traced)),
    .dispatch 0 1, .complete (.written 1 false false), .dispatch 0 0,
    .complete (.read 1 (.message fresh)), .dispatch 0 1]

/-- The bytes in order. -/
def counting : Stream' UInt8 := fun index => index.toUInt8

theorem sessions_traced_between : ∃ loop first passed drawn,
    Transition.run (program backwards {}).step (start () counting) tracedBetween = some loop ∧
      loop.user.exchanges = [first, passed, drawn] ∧
      backwards.find passed.wire.fields "traceparent" = some (text (header (ascii "00") sampled)) ∧
      backwards.find drawn.wire.fields "traceparent" =
        some (text (drawnRoot (counting.drop 24)).toTraceParent) := by
  have traceless : Traceless ({} : Router Details (Shared Unit)) := by
    intro req shared
    rw [Router.route_missing {} req rfl]
    rfl
  have runs : (Transition.run (program backwards {}).step (start () counting) tracedBetween).any
      (·.user.exchanges.map (·.message.fields) = [[], traced.fields, []]) := by
    decide +kernel
  obtain ⟨loop, reached, fields⟩ := (Option.any_eq_true _ _).mp runs
  have each := sessions_traced backwards {} traceless () counting tracedBetween loop reached
  obtain ⟨first, _, handled, none_, fields⟩ := List.map_eq_cons_iff.mp (of_decide_eq_true fields)
  obtain ⟨passed, _, rfl, given, fields⟩ := List.map_eq_cons_iff.mp fields
  obtain ⟨drawn, _, rfl, none', last⟩ := List.map_eq_cons_iff.mp fields
  obtain rfl := List.map_eq_nil_iff.mp last
  rw [handled] at each
  have carries : Carries backwards passed.message sampled := by
    refine ⟨by decide +kernel, ascii "cc", ⟨by decide +kernel, by decide +kernel⟩, ?_⟩
    rw [given]
    decide +kernel
  have empty {message : Message} (bare : message.fields = []) :
      carried backwards message = {} := by
    rw [carried, bare]
    rfl
  have drew : untraced backwards [first, passed] = 1 := by
    rw [untraced, List.countP_cons, List.countP_singleton, empty none_, carried_of_carries carries,
      carries.1]
    rfl
  refine ⟨loop, first, passed, drawn, reached, handled, (each 1 passed rfl).handed sampled carries,
    ?_⟩
  rw [(each 2 drawn rfl).drawn]
  · show some (text (drawnRoot
      (counting.drop (24 * untraced backwards [first, passed]))).toTraceParent) = _
    rw [drew]
  · rintro ⟨ctx, others⟩
    have valid := others.1
    rw [← carried_of_carries others, empty none'] at valid
    cases valid

end Chmicro.Http.HttpSession
