import Mathlib.Data.Stream.Init
import Chmicro.Metrics

set_option autoImplicit false

namespace Chmicro

def dash : UInt8 := 45

/-- The character `'0'`. -/
def zeroDigit : UInt8 := 48

def isLowerHex (c : UInt8) : Bool := (48 ≤ c && c ≤ 57) || (97 ≤ c && c ≤ 102)

def kHex : Bytes := ascii "0123456789abcdef"

/-- The generator's bytes are the next ones of a stream. -/
def randomHex : Nat → Stream' UInt8 → Bytes × Stream' UInt8
  | 0, random => ([], random)
  | bytes + 1, random =>
      let b := random.head
      let (out, rest) := randomHex bytes random.tail
      (kHex.getD ((b >>> 4) &&& 0xF).toNat 0 :: kHex.getD (b &&& 0xF).toNat 0 :: out, rest)

structure TraceContext where
  traceId : Bytes := []
  spanId : Bytes := []
  flags : Bytes := []
  deriving DecidableEq

namespace TraceContext

def valid (ctx : TraceContext) : Bool :=
  if ctx.traceId.length ≠ 32 ∨ ctx.spanId.length ≠ 16 ∨ ctx.flags.length ≠ 2 then false
  else if ¬ ctx.traceId.all isLowerHex then false
  else if ¬ ctx.spanId.all isLowerHex then false
  else if ¬ ctx.flags.all isLowerHex then false
  else if ctx.traceId.all (· = zeroDigit) then false
  else if ctx.spanId.all (· = zeroDigit) then false
  else true

/-- Sampled by default. -/
def newRoot (random : Stream' UInt8) : TraceContext × Stream' UInt8 :=
  let (traceId, random) := randomHex 16 random
  let (spanId, random) := randomHex 8 random
  ({ traceId, spanId, flags := ascii "01" }, random)

/-- `std::string_view::substr`. -/
def substr (text : Bytes) (pos count : Nat) : Bytes := (text.drop pos).take count

def parseTraceParent (traceparent : Bytes) : TraceContext :=
  if traceparent.length ≠ 55 then {}
  else if traceparent[2]? ≠ some dash ∨ traceparent[35]? ≠ some dash ∨
      traceparent[52]? ≠ some dash then {}
  else if ¬ (substr traceparent 0 2).all isLowerHex then {}
  else
    let ctx : TraceContext :=
      { traceId := substr traceparent 3 32
        spanId := substr traceparent 36 16
        flags := substr traceparent 53 2 }
    if ¬ ctx.valid then {} else ctx

def toTraceParent (ctx : TraceContext) : Bytes :=
  if ¬ ctx.valid then []
  else ascii "00-" ++ ctx.traceId ++ ascii "-" ++ ctx.spanId ++ ascii "-" ++ ctx.flags

section Fields

/-- An id: lowercase hex, of a length, and not all `'0'`. -/
structure Id (length : Nat) (text : Bytes) : Prop where
  sized : text.length = length
  hex : ∀ c ∈ text, isLowerHex c
  nonzero : ∃ c ∈ text, c ≠ zeroDigit

/-- Two lowercase hex digits. -/
structure HexPair (text : Bytes) : Prop where
  sized : text.length = 2
  hex : ∀ c ∈ text, isLowerHex c

theorem hexPair_ofList {high low : Char} (first : isLowerHex high.toNat.toUInt8)
    (second : isLowerHex low.toNat.toUInt8) : HexPair (ascii (String.ofList [high, low])) := by
  rw [ascii, String.toList_ofList]
  exact ⟨rfl, by simp [first, second]⟩

theorem not_all_zeroDigit (text : Bytes) :
    ¬ text.all (· = zeroDigit) ↔ ∃ c ∈ text, c ≠ zeroDigit := by
  simp

theorem valid_iff (ctx : TraceContext) :
    ctx.valid ↔ Id 32 ctx.traceId ∧ Id 16 ctx.spanId ∧ HexPair ctx.flags := by
  constructor
  · intro accepted
    unfold valid at accepted
    split_ifs at accepted with sizes trace span flags traceZero spanZero
    rw [not_or, not_or, not_not, not_not, not_not] at sizes
    rw [List.all_eq_true] at trace span flags
    have traceNonzero := (not_all_zeroDigit ctx.traceId).mp traceZero
    have spanNonzero := (not_all_zeroDigit ctx.spanId).mp spanZero
    exact ⟨⟨sizes.1, trace, traceNonzero⟩, ⟨sizes.2.1, span, spanNonzero⟩, ⟨sizes.2.2, flags⟩⟩
  · intro ⟨trace, span, flags⟩
    have sizes : ¬ (ctx.traceId.length ≠ 32 ∨ ctx.spanId.length ≠ 16 ∨ ctx.flags.length ≠ 2) := by
      rw [trace.sized, span.sized, flags.sized]
      decide
    unfold valid
    rw [if_neg sizes, if_neg (not_not.mpr (List.all_eq_true.mpr trace.hex)),
      if_neg (not_not.mpr (List.all_eq_true.mpr span.hex)),
      if_neg (not_not.mpr (List.all_eq_true.mpr flags.hex)),
      if_neg ((not_all_zeroDigit ctx.traceId).mpr trace.nonzero),
      if_neg ((not_all_zeroDigit ctx.spanId).mpr span.nonzero)]

theorem not_valid_empty : ¬ ({} : TraceContext).valid := Bool.false_ne_true

end Fields

end TraceContext

end Chmicro
