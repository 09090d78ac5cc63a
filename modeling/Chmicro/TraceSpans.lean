import Mathlib
import Chmicro.Trace

set_option autoImplicit false

namespace Chmicro.TraceContext

section Hex

/-- The two digits of a byte, the high half first. -/
def hexByte (byte : UInt8) : Bytes :=
  [kHex.getD (byte.toNat / 16) 0, kHex.getD (byte.toNat % 16) 0]

def hex (bytes : List UInt8) : Bytes := bytes.flatMap hexByte

theorem isLowerHex_kHex : ∀ half < 16, isLowerHex (kHex.getD half 0) := by decide +kernel

theorem halves (byte : UInt8) :
    ((byte >>> 4) &&& 0xF).toNat = byte.toNat / 16 ∧ (byte &&& 0xF).toNat = byte.toNat % 16 := by
  have small := byte.toNat_lt
  have low (value : Nat) : value &&& 15 = value % 16 := Nat.and_two_pow_sub_one_eq_mod value 4
  have shifted : (byte >>> 4).toNat = byte.toNat / 16 := by
    rw [UInt8.toNat_shiftRight, Nat.shiftRight_eq_div_pow]
    rfl
  constructor
  · rw [UInt8.toNat_and, shifted]
    exact (low (byte.toNat / 16)).trans (Nat.mod_eq_of_lt (by omega))
  · rw [UInt8.toNat_and]
    exact low byte.toNat

theorem randomHex_eq (bytes : Nat) (random : Stream' UInt8) :
    randomHex bytes random = (hex (random.take bytes), random.drop bytes) := by
  induction bytes generalizing random with
  | zero => rfl
  | succ bytes ih =>
      have ⟨high, low⟩ := halves random.head
      rw [randomHex, ih random.tail, Stream'.take_succ, high, low]
      rfl

theorem hex_length (bytes : List UInt8) : (hex bytes).length = 2 * bytes.length := by
  induction bytes with
  | nil => rfl
  | cons byte bytes ih =>
      have both : hex (byte :: bytes) = hexByte byte ++ hex bytes := rfl
      have two : (hexByte byte).length = 2 := rfl
      rw [both, List.length_append, ih, two, List.length_cons]
      omega

theorem isLowerHex_hexByte (byte : UInt8) : ∀ c ∈ hexByte byte, isLowerHex c := by
  have small := byte.toNat_lt
  intro c member
  rcases List.mem_cons.mp member with rfl | later
  · exact isLowerHex_kHex (byte.toNat / 16) (by omega)
  · rw [List.mem_singleton.mp later]
    exact isLowerHex_kHex (byte.toNat % 16) (by omega)

theorem isLowerHex_hex (bytes : List UInt8) : ∀ c ∈ hex bytes, isLowerHex c := by
  intro c member
  obtain ⟨byte, -, inside⟩ := List.mem_flatMap.mp member
  exact isLowerHex_hexByte byte c inside

end Hex

section Spans

/-- The root of the next bytes. -/
def drawnRoot (random : Stream' UInt8) : TraceContext where
  traceId := hex (random.take 16)
  spanId := hex ((random.drop 16).take 8)
  flags := ascii "01"

theorem newRoot_eq (random : Stream' UInt8) :
    newRoot random = (drawnRoot random, random.drop 24) := by
  simp only [newRoot, randomHex_eq, drawnRoot, Stream'.drop_drop]

end Spans

end Chmicro.TraceContext
