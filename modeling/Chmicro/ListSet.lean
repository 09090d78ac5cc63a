import Mathlib

set_option autoImplicit false

/- Lists with one entry replaced or removed, or one more at the end. -/
namespace ListSet

variable {α : Type}

theorem forall_mem_set {items : List α} {index : Nat} {new : α} {holds : α → Prop}
    (before : ∀ item ∈ items, holds item) (now : holds new) :
    ∀ item ∈ items.set index new, holds item := by
  intro item member
  rcases List.mem_or_eq_of_mem_set member with old | rfl
  · exact before item old
  · exact now

/-- Only the entry that is replaced leaves the list. -/
theorem mem_set_of_ne {items : List α} {index : Nat} {old item : α}
    (found : items[index]? = some old) (member : item ∈ items) (other : item ≠ old) (new : α) :
    item ∈ items.set index new := by
  obtain ⟨position, standing⟩ := List.mem_iff_getElem?.mp member
  have elsewhere : index ≠ position := by
    rintro rfl
    exact other (Option.some.inj (standing.symm.trans found))
  exact List.mem_iff_getElem?.mpr ⟨position, (List.getElem?_set_ne elsewhere).trans standing⟩

theorem getElem?_of_set {items : List α} {index position : Nat} {new item : α}
    (found : (items.set index new)[position]? = some item) (other : new ≠ item) :
    items[position]? = some item := by
  by_cases here : index = position
  · subst here
    rw [List.getElem?_set_self'] at found
    obtain ⟨_, _, same⟩ := Option.map_eq_some_iff.mp found
    exact (other same).elim
  · rwa [List.getElem?_set_ne here] at found

theorem getElem?_of_concat {items : List α} {position : Nat} {new item : α}
    (found : (items ++ [new])[position]? = some item) (other : new ≠ item) :
    items[position]? = some item := by
  rw [List.getElem?_append] at found
  split at found
  · exact found
  · have last := List.mem_of_getElem? found
    exact (other (List.mem_singleton.mp last).symm).elim

/-- What each entry is, given those before it, when one more is added. -/
theorem each_concat {holds : List α → α → Prop} {items : List α} {new : α}
    (each : ∀ position item, items[position]? = some item → holds (items.take position) item)
    (last : holds items new) :
    ∀ position item, (items ++ [new])[position]? = some item →
      holds ((items ++ [new]).take position) item := by
  intro position item found
  rcases Nat.lt_trichotomy position items.length with inside | rfl | beyond
  · rw [List.getElem?_append_left inside] at found
    rw [List.take_append_of_le_length (by omega)]
    exact each position item found
  · rw [List.getElem?_concat_length] at found
    rw [List.take_left, ← Option.some.inj found]
    exact last
  · rw [List.getElem?_eq_none (by rw [List.length_append, List.length_singleton]; omega)] at found
    cases found

/-- Two maps that tell the same items apart. -/
theorem map_eq_map_congr {β γ : Type} {f : α → β} {g : α → γ} {items others : List α}
    (same : ∀ item ∈ items, ∀ other ∈ others, f item = f other ↔ g item = g other) :
    items.map f = others.map f ↔ items.map g = others.map g := by
  induction items generalizing others with
  | nil => cases others <;> simp
  | cons item rest ih =>
      cases others with
      | nil => simp
      | cons other later =>
          have tails := ih fun item member other listed =>
            same item (List.mem_cons_of_mem _ member) other (List.mem_cons_of_mem _ listed)
          rw [List.map_cons, List.map_cons, List.map_cons, List.map_cons, List.cons.injEq,
            List.cons.injEq, same item List.mem_cons_self other List.mem_cons_self, tails]

/-- Replacing one entry moves a count by the difference of the two entries. -/
theorem countP_set_add (holds : α → Bool) {items : List α} {index : Nat} {old : α}
    (found : items[index]? = some old) (new : α) :
    (items.set index new).countP holds + (if holds old then 1 else 0) =
      items.countP holds + if holds new then 1 else 0 := by
  obtain ⟨inside, rfl⟩ := List.getElem?_eq_some_iff.mp found
  rw [List.countP_set inside]
  by_cases counted : holds items[index]
  · have positive : 0 < items.countP holds :=
      List.countP_pos_iff.mpr ⟨_, List.getElem_mem inside, counted⟩
    simp only [counted, ↓reduceIte]
    omega
  · simp only [counted, Bool.false_eq_true, ↓reduceIte]
    omega

theorem mem_eraseIdx_of_ne {items : List α} {index : Nat} {old item : α}
    (found : items[index]? = some old) (member : item ∈ items) (other : item ≠ old) :
    item ∈ items.eraseIdx index := by
  obtain ⟨position, standing⟩ := List.mem_iff_getElem?.mp member
  have elsewhere : position ≠ index := by
    rintro rfl
    exact other (Option.some.inj (standing.symm.trans found))
  exact List.mem_eraseIdx_iff_getElem?.mpr ⟨position, elsewhere, standing⟩

theorem countP_eraseIdx_add (holds : α → Bool) {items : List α} {index : Nat} {old : α}
    (found : items[index]? = some old) :
    (items.eraseIdx index).countP holds + (if holds old then 1 else 0) = items.countP holds := by
  induction items generalizing index with
  | nil => simp at found
  | cons first rest ih =>
      cases index with
      | zero =>
          obtain rfl : first = old := by simpa using found
          rw [List.eraseIdx_cons_zero, List.countP_cons]
      | succ index =>
          have shorter := ih (by simpa using found)
          rw [List.eraseIdx_cons_succ, List.countP_cons, List.countP_cons]
          omega

theorem sum_map_set_add (weight : α → Nat) {items : List α} {index : Nat} {old : α}
    (found : items[index]? = some old) (new : α) :
    ((items.set index new).map weight).sum + weight old =
      (items.map weight).sum + weight new := by
  induction items generalizing index with
  | nil => simp at found
  | cons first rest ih =>
      cases index with
      | zero =>
          obtain rfl : first = old := by simpa using found
          simp only [List.set_cons_zero, List.map_cons, List.sum_cons]
          omega
      | succ index =>
          have shorter := ih (by simpa using found)
          simp only [List.set_cons_succ, List.map_cons, List.sum_cons]
          omega

/-- One count more is seen in the sums that include it. -/
theorem sum_take_modify {M : Type} [AddCommMonoid M] {counts : List M} {index : Nat}
    (inside : index < counts.length) (more : M) (upTo : Nat) :
    ((counts.modify index (· + more)).take upTo).sum =
      (counts.take upTo).sum + if index < upTo then more else 0 := by
  induction counts generalizing index upTo with
  | nil => exact absurd inside (Nat.not_lt_zero index)
  | cons count rest ih =>
      cases upTo with
      | zero => simp
      | succ upTo =>
          cases index with
          | zero =>
              rw [List.modify_zero_cons, List.take_succ_cons, List.take_succ_cons, List.sum_cons,
                List.sum_cons, if_pos (Nat.succ_pos upTo)]
              exact add_right_comm count more _
          | succ index =>
              have later := ih (by simpa using inside) upTo
              rw [List.modify_succ_cons, List.take_succ_cons, List.take_succ_cons, List.sum_cons,
                List.sum_cons, later]
              simp only [Nat.succ_lt_succ_iff]
              exact (add_assoc count _ _).symm

theorem sum_map_eraseIdx_add (value : α → Nat) {items : List α} {index : Nat} {old : α}
    (found : items[index]? = some old) :
    ((items.eraseIdx index).map value).sum + value old = (items.map value).sum := by
  obtain ⟨inside, rfl⟩ := List.getElem?_eq_some_iff.mp found
  have same := ((List.getElem_cons_eraseIdx_perm inside).map value).sum_eq
  rw [List.map_cons, List.sum_cons] at same
  omega

/-- A sum over the entries, with a bound for those of one kind. -/
theorem sum_map_le_countP {value rest : α → Nat} (kind : α → Bool) {most : Nat}
    (bounded : ∀ item, value item ≤ (if kind item then most else 0) + rest item) (items : List α) :
    (items.map value).sum ≤ most * items.countP kind + (items.map rest).sum := by
  induction items with
  | nil => simp
  | cons first later ih =>
      have here := bounded first
      rw [List.map_cons, List.map_cons, List.sum_cons, List.sum_cons, List.countP_cons, Nat.mul_add]
      split at here <;> simp_all <;> omega

end ListSet
