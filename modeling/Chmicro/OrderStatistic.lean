import Mathlib.Data.List.Sort

set_option autoImplicit false

/- The element of a rank in a sorted list. Nothing here refers to a particular program. -/
namespace OrderStatistic

variable {α : Type}

/-- What holds of everything below an element holds of the elements before a rank, and of no
others. -/
theorem holds_iff_lt_countP {le : α → α → Prop} {xs : List α} (sorted : xs.Pairwise le)
    {holds : α → Bool} (down : ∀ a b, le a b → holds b → holds a) {rank : Nat} {a : α}
    (here : xs[rank]? = some a) : holds a ↔ rank < xs.countP holds := by
  induction xs generalizing rank with
  | nil => exact absurd here (by simp)
  | cons first rest ih =>
      obtain ⟨above, later⟩ := List.pairwise_cons.mp sorted
      by_cases low : holds first
      · rw [List.countP_cons_of_pos low]
        cases rank with
        | zero =>
            obtain rfl : first = a := by simpa using here
            simp [low]
        | succ rank =>
            have next := ih later (by simpa using here)
            rw [next]
            omega
      · have none_ : rest.countP holds = 0 := by
          apply List.countP_eq_zero.mpr
          intro b member high
          exact low (down first b (above b member) high)
        rw [List.countP_cons_of_neg low, none_]
        have member := List.mem_of_getElem? here
        constructor
        · intro high
          rcases List.mem_cons.mp member with rfl | inRest
          · exact absurd high low
          · exact absurd (down first a (above a inRest) high) low
        · intro short
          omega

variable [LinearOrder α]

/-- The element of the rank when the list is sorted. -/
def ranked (xs : List α) (rank : Nat) : Option α := (xs.insertionSort (· ≤ ·))[rank]?

theorem ranked_lt {xs : List α} {rank : Nat} (inside : rank < xs.length) :
    ∃ a, ranked xs rank = some a := by
  have sized : rank < (xs.insertionSort (· ≤ ·)).length := by
    rw [List.length_insertionSort]
    exact inside
  exact ⟨_, List.getElem?_eq_getElem sized⟩

theorem ranked_mem {xs : List α} {rank : Nat} {a : α} (here : ranked xs rank = some a) : a ∈ xs :=
  (List.mem_insertionSort _).mp (List.mem_of_getElem? here)

theorem ranked_iff {xs : List α} {rank : Nat} {a : α} (here : ranked xs rank = some a)
    {holds : α → Bool} (down : ∀ a b, a ≤ b → holds b → holds a) :
    holds a ↔ rank < xs.countP holds := by
  rw [← (List.perm_insertionSort (· ≤ ·) xs).countP_eq holds]
  exact holds_iff_lt_countP (List.pairwise_insertionSort _ xs) down here

theorem ranked_mono {xs : List α} {first second : Nat} (le : first ≤ second) {a b : α}
    (early : ranked xs first = some a) (late : ranked xs second = some b) : a ≤ b := by
  have down : ∀ c d, c ≤ d → decide (d ≤ b) → decide (c ≤ b) := by
    intro c d below inside
    exact decide_eq_true (le_trans below (of_decide_eq_true inside))
  have enough := (ranked_iff late down).mp (decide_eq_true le_rfl)
  have before := (ranked_iff early down).mpr (by omega)
  exact of_decide_eq_true before

end OrderStatistic
