import Mathlib.Algebra.Order.Floor.Ring

set_option autoImplicit false

/- Truncation toward zero. Nothing here refers to a particular program. -/
namespace Truncation

variable {α : Type} [Ring α] [LinearOrder α] [FloorRing α]

def truncate (x : α) : Int := if x < 0 then ⌈x⌉ else ⌊x⌋

theorem truncate_of_nonneg {x : α} (nonneg : 0 ≤ x) : truncate x = ⌊x⌋ :=
  if_neg (not_lt.mpr nonneg)

theorem truncate_of_neg {x : α} (negative : x < 0) : truncate x = ⌈x⌉ :=
  if_pos negative

theorem truncate_nonneg {x : α} (nonneg : 0 ≤ x) : 0 ≤ truncate x := by
  rw [truncate_of_nonneg nonneg]
  exact Int.floor_nonneg.mpr nonneg

theorem truncate_lt_iff {x : α} (nonneg : 0 ≤ x) (n : Int) : truncate x < n ↔ x < n := by
  rw [truncate_of_nonneg nonneg]
  exact Int.floor_lt

theorem truncate_mono {x y : α} (le : x ≤ y) : truncate x ≤ truncate y := by
  rcases lt_or_ge x 0 with negative | nonneg
  · rcases lt_or_ge y 0 with below | above
    · rw [truncate_of_neg negative, truncate_of_neg below]
      exact Int.ceil_le_ceil le
    · have high := truncate_nonneg above
      have low : ⌈x⌉ ≤ 0 := by
        apply Int.ceil_le.mpr
        simpa using le_of_lt negative
      rw [truncate_of_neg negative]
      omega
  · rw [truncate_of_nonneg nonneg, truncate_of_nonneg (le_trans nonneg le)]
    exact Int.floor_le_floor le

variable [IsStrictOrderedRing α]

@[simp] theorem truncate_intCast (n : Int) : truncate (n : α) = n := by
  unfold truncate
  split
  · exact Int.ceil_intCast n
  · exact Int.floor_intCast n

end Truncation
