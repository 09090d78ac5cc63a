import Chmicro.Trace

set_option autoImplicit false

namespace Chmicro.TraceContext

/-- A traceparent of any version: two characters, and the three fields behind dashes. -/
def header (version : Bytes) (ctx : TraceContext) : Bytes :=
  version ++ dash :: (ctx.traceId ++ dash :: (ctx.spanId ++ dash :: ctx.flags))

section Offsets

variable {text version : Bytes} {ctx : TraceContext} {pos count : Nat}

theorem substr_of_split (before field after : Bytes) (split : text = before ++ (field ++ after))
    (start : before.length = pos) (sized : field.length = count) :
    substr text pos count = field := by
  subst split start sized
  rw [substr, List.drop_left, List.take_left]

theorem getElem?_of_split (before after : Bytes) (split : text = before ++ dash :: after)
    (start : before.length = pos) : text[pos]? = some dash := by
  subst split start
  rw [List.getElem?_append_right le_rfl, Nat.sub_self, List.getElem?_cons_zero]

theorem header_length (pair : HexPair version) (valid : ctx.valid) :
    (header version ctx).length = 55 := by
  have ⟨trace, span, flags⟩ := (valid_iff ctx).mp valid
  simp only [header, List.length_append, List.length_cons, pair.sized, trace.sized, span.sized,
    flags.sized]

/-- The offsets the parser uses are the lengths of what stands before them. -/
theorem parseTraceParent_header (pair : HexPair version) (valid : ctx.valid) :
    parseTraceParent (header version ctx) = ctx := by
  have ⟨trace, span, flags⟩ := (valid_iff ctx).mp valid
  let beforeTrace := version ++ [dash]
  let beforeSpan := beforeTrace ++ (ctx.traceId ++ [dash])
  let beforeFlags := beforeSpan ++ (ctx.spanId ++ [dash])
  have traceStart : beforeTrace.length = 3 := by
    simp [beforeTrace, pair.sized]
  have spanStart : beforeSpan.length = 36 := by
    simp [beforeSpan, traceStart, trace.sized]
  have flagsStart : beforeFlags.length = 53 := by
    simp [beforeFlags, spanStart, span.sized]
  have versionAt : substr (header version ctx) 0 2 = version :=
    substr_of_split [] version _ rfl rfl pair.sized
  have traceAt : substr (header version ctx) 3 32 = ctx.traceId :=
    substr_of_split beforeTrace ctx.traceId (dash :: (ctx.spanId ++ dash :: ctx.flags))
      (by simp [header, beforeTrace]) traceStart trace.sized
  have spanAt : substr (header version ctx) 36 16 = ctx.spanId :=
    substr_of_split beforeSpan ctx.spanId (dash :: ctx.flags)
      (by simp [header, beforeSpan, beforeTrace]) spanStart span.sized
  have flagsAt : substr (header version ctx) 53 2 = ctx.flags :=
    substr_of_split beforeFlags ctx.flags []
      (by simp [header, beforeFlags, beforeSpan, beforeTrace]) flagsStart flags.sized
  have firstDash : (header version ctx)[2]? = some dash :=
    getElem?_of_split version _ rfl pair.sized
  have secondDash : (header version ctx)[35]? = some dash :=
    getElem?_of_split (beforeTrace ++ ctx.traceId) (ctx.spanId ++ dash :: ctx.flags)
      (by simp [header, beforeTrace]) (by simp [traceStart, trace.sized])
  have thirdDash : (header version ctx)[52]? = some dash :=
    getElem?_of_split (beforeSpan ++ ctx.spanId) ctx.flags
      (by simp [header, beforeSpan, beforeTrace]) (by simp [spanStart, span.sized])
  have versionHex : (substr (header version ctx) 0 2).all isLowerHex := by
    rw [versionAt]
    exact List.all_eq_true.mpr pair.hex
  rw [parseTraceParent, if_neg (not_not.mpr (header_length pair valid)), firstDash, secondDash,
    thirdDash, if_neg (by simp), if_neg (not_not.mpr versionHex), traceAt, spanAt, flagsAt,
    if_neg (not_not.mpr valid)]

theorem drop_eq_substr (text : Bytes) (pos count : Nat) :
    text.drop pos = substr text pos count ++ text.drop (pos + count) := by
  have split := List.take_append_drop count (text.drop pos)
  rw [List.drop_drop] at split
  exact split.symm

theorem drop_eq_dash (here : text[pos]? = some dash) :
    text.drop pos = dash :: text.drop (pos + 1) := by
  obtain ⟨inside, found⟩ := List.getElem?_eq_some_iff.mp here
  rw [List.drop_eq_getElem_cons inside, found]

end Offsets

section Language

variable {text : Bytes} {ctx : TraceContext}

/-- A text the parser takes is the header of the fields it returns. -/
theorem header_of_parseTraceParent (accepted : (parseTraceParent text).valid) :
    ∃ version, HexPair version ∧ text = header version (parseTraceParent text) := by
  unfold parseTraceParent at accepted ⊢
  dsimp only at accepted ⊢
  split_ifs at accepted ⊢ with sized dashes hex valid
  · exact (TraceContext.not_valid_empty accepted).elim
  · exact (TraceContext.not_valid_empty accepted).elim
  · have length : text.length = 55 := not_not.mp sized
    rw [not_or, not_or, not_not, not_not, not_not] at dashes
    have versionSized : (substr text 0 2).length = 2 := by
      simp only [substr, List.length_take, List.length_drop]
      omega
    have flagsEnd : text.drop (53 + 2) = [] := by
      apply List.drop_eq_nil_of_le
      omega
    have whole : text = header (substr text 0 2)
        { traceId := substr text 3 32, spanId := substr text 36 16, flags := substr text 53 2 } :=
      calc text = substr text 0 2 ++ text.drop 2 := drop_eq_substr text 0 2
        _ = substr text 0 2 ++ dash :: text.drop 3 := by rw [drop_eq_dash dashes.1]
        _ = substr text 0 2 ++ dash :: (substr text 3 32 ++ text.drop 35) := by
          rw [drop_eq_substr text 3 32]
        _ = substr text 0 2 ++ dash :: (substr text 3 32 ++ dash :: text.drop 36) := by
          rw [drop_eq_dash dashes.2.1]
        _ = substr text 0 2 ++ dash :: (substr text 3 32 ++ dash ::
              (substr text 36 16 ++ text.drop 52)) := by
          rw [drop_eq_substr text 36 16]
        _ = substr text 0 2 ++ dash :: (substr text 3 32 ++ dash ::
              (substr text 36 16 ++ dash :: text.drop 53)) := by
          rw [drop_eq_dash dashes.2.2]
        _ = _ := by rw [drop_eq_substr text 53 2, flagsEnd, List.append_nil, header]
    have pair : HexPair (substr text 0 2) := ⟨versionSized, List.all_eq_true.mp hex⟩
    exact ⟨substr text 0 2, pair, whole⟩
  · exact (TraceContext.not_valid_empty accepted).elim
  · exact (TraceContext.not_valid_empty accepted).elim

theorem parseTraceParent_empty_or_valid (text : Bytes) :
    parseTraceParent text = {} ∨ (parseTraceParent text).valid := by
  unfold parseTraceParent
  dsimp only
  split_ifs with sized dashes hex valid
  · exact .inl rfl
  · exact .inl rfl
  · exact .inr valid
  · exact .inl rfl
  · exact .inl rfl

/-- The language: a header of any two hex digits in front of a valid context. -/
theorem parseTraceParent_eq_iff (valid : ctx.valid) :
    parseTraceParent text = ctx ↔ ∃ version, HexPair version ∧ text = header version ctx := by
  constructor
  · intro parsed
    rw [← parsed] at valid ⊢
    exact header_of_parseTraceParent valid
  · intro ⟨version, pair, whole⟩
    rw [whole]
    exact parseTraceParent_header pair valid

theorem toTraceParent_valid (valid : ctx.valid) :
    ctx.toTraceParent = header (ascii "00") ctx := by
  rw [toTraceParent, if_neg (not_not.mpr valid)]
  simp [header, ascii, dash]

theorem toTraceParent_header {version : Bytes} (pair : HexPair version) (valid : ctx.valid) :
    ctx.toTraceParent = ascii "00" ++ (header version ctx).drop 2 := by
  have behind : (header version ctx).drop 2 = dash :: (ctx.traceId ++ dash ::
      (ctx.spanId ++ dash :: ctx.flags)) := by
    rw [header, ← pair.sized, List.drop_left]
  rw [toTraceParent_valid valid, behind, header]

theorem hexPair_zero : HexPair (ascii "00") := hexPair_ofList rfl rfl

end Language

section RoundTrip

theorem traceparent_round_trip :
    (∀ ctx : TraceContext, ctx.valid → parseTraceParent ctx.toTraceParent = ctx) ∧
    ∀ text : Bytes,
      (parseTraceParent text = {} ∧ (parseTraceParent text).toTraceParent = []) ∨
      ((parseTraceParent text).valid ∧
        (parseTraceParent text).toTraceParent = ascii "00" ++ text.drop 2) := by
  constructor
  · intro ctx valid
    rw [toTraceParent_valid valid]
    exact parseTraceParent_header hexPair_zero valid
  · intro text
    rcases parseTraceParent_empty_or_valid text with empty | valid
    · have nothing : (parseTraceParent text).toTraceParent = [] := by
        rw [empty]
        rfl
      exact .inl ⟨empty, nothing⟩
    · obtain ⟨version, pair, whole⟩ := header_of_parseTraceParent valid
      have same := toTraceParent_header pair valid
      rw [← whole] at same
      exact .inr ⟨valid, same⟩

def sampled : TraceContext where
  traceId := ascii "4bf92f3577b34da6a3ce929d0e0e4736"
  spanId := ascii "00f067aa0ba902b7"
  flags := ascii "01"

theorem sampled_valid : sampled.valid := by
  rw [valid]
  simp [sampled, ascii, isLowerHex, zeroDigit]

theorem traceparent_round_trip_sampled :
    sampled.valid ∧ parseTraceParent sampled.toTraceParent = sampled :=
  ⟨sampled_valid, traceparent_round_trip.1 sampled sampled_valid⟩

end RoundTrip

section Versions

/-- The traceparents of W3C trace-context, where the version `ff` is forbidden. -/
def W3C (text : Bytes) (ctx : TraceContext) : Prop :=
  ∃ version, HexPair version ∧ version ≠ ascii "ff" ∧
    Id 32 ctx.traceId ∧ Id 16 ctx.spanId ∧ HexPair ctx.flags ∧ text = header version ctx

/-- Well formed, but for the version. -/
def Forbidden (text : Bytes) : Prop :=
  ∃ ctx : TraceContext, Id 32 ctx.traceId ∧ Id 16 ctx.spanId ∧ HexPair ctx.flags ∧
    text = header (ascii "ff") ctx

theorem W3C.parse {text : Bytes} {ctx : TraceContext} (form : W3C text ctx) :
    ctx.valid ∧ parseTraceParent text = ctx := by
  obtain ⟨version, pair, -, trace, span, flags, whole⟩ := form
  have valid := (valid_iff ctx).mpr ⟨trace, span, flags⟩
  exact ⟨valid, (parseTraceParent_eq_iff valid).mpr ⟨version, pair, whole⟩⟩

theorem hexPair_ff : HexPair (ascii "ff") := hexPair_ofList rfl rfl

/-- A header says what its version is. -/
theorem header_version {version other : Bytes} {ctx second : TraceContext}
    (pair : HexPair version) (otherPair : HexPair other)
    (same : header version ctx = header other second) : version = other := by
  have sized : version.length = other.length := by rw [pair.sized, otherPair.sized]
  exact (List.append_inj same sized).1

theorem Forbidden.not_w3c {text : Bytes} (forbidden : Forbidden text) :
    ¬ ∃ ctx, W3C text ctx := by
  intro ⟨second, version, pair, allowed, _, _, _, other⟩
  obtain ⟨ctx, -, -, -, whole⟩ := forbidden
  exact allowed (header_version pair hexPair_ff (other.symm.trans whole))

theorem Forbidden.parse {text : Bytes} (forbidden : Forbidden text) :
    (parseTraceParent text).valid := by
  obtain ⟨ctx, trace, span, flags, whole⟩ := forbidden
  have valid := (valid_iff ctx).mpr ⟨trace, span, flags⟩
  rw [(parseTraceParent_eq_iff valid).mpr ⟨ascii "ff", hexPair_ff, whole⟩]
  exact valid

/-- What the parser takes besides the forbidden version is a traceparent. -/
theorem w3c_of_parseTraceParent {text : Bytes} (permitted : ¬ Forbidden text)
    (valid : (parseTraceParent text).valid) : W3C text (parseTraceParent text) := by
  obtain ⟨version, pair, whole⟩ := header_of_parseTraceParent valid
  have ⟨trace, span, flags⟩ := (valid_iff (parseTraceParent text)).mp valid
  have allowed : version ≠ ascii "ff" := by
    intro same
    rw [same] at whole
    exact permitted ⟨parseTraceParent text, trace, span, flags, whole⟩
  exact ⟨version, pair, allowed, trace, span, flags, whole⟩

theorem parseTraceParent_exact_iff (text : Bytes) :
    (((parseTraceParent text).valid ↔ ∃ ctx, W3C text ctx) ∧
      ∀ ctx, W3C text ctx → parseTraceParent text = ctx) ↔ ¬ Forbidden text := by
  constructor
  · intro ⟨language, _⟩ forbidden
    exact forbidden.not_w3c (language.mp forbidden.parse)
  · intro permitted
    constructor
    · constructor
      · intro valid
        exact ⟨parseTraceParent text, w3c_of_parseTraceParent permitted valid⟩
      · intro ⟨ctx, form⟩
        have ⟨valid, parsed⟩ := form.parse
        rw [parsed]
        exact valid
    · intro ctx form
      exact form.parse.2

theorem parseTraceParent_takes_ff :
    (parseTraceParent (ascii "ff-4bf92f3577b34da6a3ce929d0e0e4736-00f067aa0ba902b7-01")).valid ∧
    ¬ ∃ ctx, W3C (ascii "ff-4bf92f3577b34da6a3ce929d0e0e4736-00f067aa0ba902b7-01") ctx := by
  have ⟨trace, span, flags⟩ := (valid_iff sampled).mp sampled_valid
  have whole : ascii "ff-4bf92f3577b34da6a3ce929d0e0e4736-00f067aa0ba902b7-01" =
      header (ascii "ff") sampled := by decide +kernel
  have forbidden : Forbidden _ := ⟨sampled, trace, span, flags, whole⟩
  exact ⟨forbidden.parse, forbidden.not_w3c⟩

end Versions

end Chmicro.TraceContext
