import Mathlib

set_option autoImplicit false

/- Texts made of lines, and groups of lines that stand together. -/
namespace TextLines

variable {α β : Type}

section Ended

/-- Each line, followed by its end. -/
def ended (newline : α) (lines : List (List α)) : List α :=
  lines.flatMap fun line => line ++ [newline]

variable [DecidableEq α] {newline : α}

/-- Lines that hold no end are read back, with nothing after the last of them. -/
theorem splitOn_ended {lines : List (List α)} (whole : ∀ line ∈ lines, newline ∉ line) :
    (ended newline lines).splitOn newline = lines ++ [[]] := by
  induction lines with
  | nil => simp [ended]
  | cons line rest ih =>
      rw [List.forall_mem_cons] at whole
      have text : ended newline (line :: rest) = line ++ newline :: ended newline rest := by
        simp [ended]
      rw [text, List.splitOn_append_cons_self_of_not_mem whole.1, ih whole.2, List.cons_append]

theorem length_splitOn (text : List α) :
    (text.splitOn newline).length = text.count newline + 1 := by
  induction text with
  | nil => simp
  | cons head rest ih =>
      rw [List.splitOn_cons_eq_if_modifyHead, List.count_cons]
      split
      · rw [List.length_cons, ih]
      · rw [List.length_modifyHead, ih]

theorem count_ended (lines : List (List α)) :
    (ended newline lines).count newline =
      lines.length + (lines.map (List.count newline)).sum := by
  induction lines with
  | nil => rfl
  | cons line rest ih =>
      have text : ended newline (line :: rest) = line ++ newline :: ended newline rest := by
        simp [ended]
      rw [text, List.count_append, List.count_cons_self, ih, List.length_cons, List.map_cons,
        List.sum_cons]
      omega

/-- An end inside a line shows in the number of lines that are read. -/
theorem length_splitOn_ended_iff {lines : List (List α)} :
    ((ended newline lines).splitOn newline).length = lines.length + 1 ↔
      ∀ line ∈ lines, newline ∉ line := by
  constructor
  · intro read line member
    rw [length_splitOn, count_ended] at read
    have total : (lines.map (List.count newline)).sum = 0 := by omega
    have each := List.sum_eq_zero_iff_forall_eq_nat.mp total
    exact List.count_eq_zero.mp (each _ (List.mem_map_of_mem member))
  · intro whole
    rw [splitOn_ended whole, List.length_append, List.length_singleton]

end Ended

section Blocks

/-- A block that begins with its one mark. -/
def Marked (marks : α → Prop) (block : List α) : Prop :=
  ∃ first rest, block = first :: rest ∧ marks first ∧ ∀ item ∈ rest, ¬ marks item

variable {marks : α → Prop}

/-- What stands before the first mark. -/
theorem marked_rest_unique {rest other : List α} {blocks others : List (List α)}
    (plain : ∀ item ∈ rest, ¬ marks item) (bare : ∀ item ∈ other, ¬ marks item)
    (marked : ∀ block ∈ blocks, Marked marks block) (framed : ∀ block ∈ others, Marked marks block)
    (same : rest ++ blocks.flatten = other ++ others.flatten) :
    rest = other ∧ blocks.flatten = others.flatten := by
  classical
  have before {rest : List α} {blocks : List (List α)} (plain : ∀ item ∈ rest, ¬ marks item)
      (marked : ∀ block ∈ blocks, Marked marks block) :
      (rest ++ blocks.flatten).takeWhile (fun item => decide (¬ marks item)) = rest := by
    rw [List.takeWhile_append_of_pos fun item member => decide_eq_true (plain item member)]
    cases blocks with
    | nil => exact List.append_nil rest
    | cons block later =>
        obtain ⟨first, items, rfl, mark, -⟩ := marked block List.mem_cons_self
        rw [List.flatten_cons, List.cons_append, List.takeWhile_cons_of_neg (by simp [mark]),
          List.append_nil]
  have front : rest = other := by rw [← before plain marked, same, before bare framed]
  subst front
  exact ⟨rfl, List.append_cancel_left same⟩

/-- Blocks can be told apart when they stand one after the other. -/
theorem marked_flatten_injective {blocks others : List (List α)}
    (marked : ∀ block ∈ blocks, Marked marks block) (framed : ∀ block ∈ others, Marked marks block)
    (same : blocks.flatten = others.flatten) : blocks = others := by
  induction blocks generalizing others with
  | nil =>
      cases others with
      | nil => rfl
      | cons other later =>
          obtain ⟨first, rest, rfl, -⟩ := framed other List.mem_cons_self
          cases same
  | cons block later ih =>
      rw [List.forall_mem_cons] at marked
      obtain ⟨first, rest, rfl, -, plain⟩ := marked.1
      cases others with
      | nil => cases same
      | cons other others =>
          rw [List.forall_mem_cons] at framed
          obtain ⟨head, items, rfl, -, bare⟩ := framed.1
          obtain ⟨rfl, tails⟩ := List.cons.inj same
          obtain ⟨rfl, texts⟩ := marked_rest_unique plain bare marked.2 framed.2 tails
          rw [ih marked.2 framed.2 texts]

end Blocks

/-- Whatever stands between two that belong to the group belongs to it. -/
def Grouped (belongs : α → Prop) (lines : List α) : Prop :=
  lines.Triplewise fun first between last => belongs first → belongs last → belongs between

namespace Grouped

variable {belongs : α → Prop} {lines before after : List α} {line : α}

theorem of_forall (every : ∀ line ∈ lines, belongs line) : Grouped belongs lines := by
  induction lines with
  | nil => exact .nil
  | cons line rest ih =>
      rw [List.forall_mem_cons] at every
      refine List.triplewise_cons.mpr ⟨?_, ih every.2⟩
      exact List.pairwise_of_forall_mem_list fun between member _ _ _ _ => every.2 between member

theorem of_none (none_ : ∀ line ∈ lines, ¬ belongs line) : Grouped belongs lines := by
  induction lines with
  | nil => exact .nil
  | cons line rest ih =>
      rw [List.forall_mem_cons] at none_
      refine List.triplewise_cons.mpr ⟨?_, ih none_.2⟩
      exact List.pairwise_of_forall_mem_list fun _ _ _ _ first => absurd first none_.1

theorem cons (outside : ¬ belongs line) (grouped : Grouped belongs lines) :
    Grouped belongs (line :: lines) :=
  List.triplewise_cons.mpr
    ⟨List.pairwise_of_forall_mem_list fun _ _ _ _ first => absurd first outside, grouped⟩

theorem append_none (grouped : Grouped belongs before) (none_ : ∀ line ∈ after, ¬ belongs line) :
    Grouped belongs (before ++ after) := by
  apply List.triplewise_append.mpr
  refine ⟨grouped, of_none none_, ?_, ?_⟩
  · intro first _
    apply List.pairwise_of_forall_mem_list
    intro between _ last member _ ends
    exact absurd ends (none_ last member)
  · intro last member
    apply List.pairwise_of_forall_mem_list
    intro first _ between _ _ ends
    exact absurd ends (none_ last member)

theorem none_append (none_ : ∀ line ∈ before, ¬ belongs line) (grouped : Grouped belongs after) :
    Grouped belongs (before ++ after) := by
  induction before with
  | nil => exact grouped
  | cons line rest ih =>
      rw [List.forall_mem_cons] at none_
      exact (ih none_.2).cons none_.1

/-- What does not belong to the group ends it or stands before it. -/
theorem gap (grouped : Grouped belongs (before ++ line :: after)) (outside : ¬ belongs line) :
    (∀ line ∈ before, ¬ belongs line) ∨ ∀ line ∈ after, ¬ belongs line := by
  by_contra both
  simp only [not_or, not_forall, not_not] at both
  obtain ⟨⟨first, ahead, starts⟩, ⟨last, behind, ends⟩⟩ := both
  have pairs := (List.triplewise_append.mp grouped).2.2.1 first ahead
  exact outside ((List.pairwise_cons.mp pairs).1 last behind starts ends)

/-- At most one of the blocks has lines of the group. -/
theorem flatMap {blocks : List β} {text : β → List α}
    (each : ∀ block ∈ blocks, Grouped belongs (text block))
    (single : blocks.Pairwise fun block later =>
      (∀ line ∈ text block, ¬ belongs line) ∨ ∀ line ∈ text later, ¬ belongs line) :
    Grouped belongs (blocks.flatMap text) := by
  induction blocks with
  | nil => exact .nil
  | cons block rest ih =>
      rw [List.forall_mem_cons] at each
      rw [List.pairwise_cons] at single
      rw [List.flatMap_cons]
      by_cases here : ∀ line ∈ text block, ¬ belongs line
      · exact none_append here (ih each.2 single.2)
      · apply append_none each.1
        intro line member
        obtain ⟨later, listed, inside⟩ := List.mem_flatMap.mp member
        exact (single.1 later listed).resolve_left here line inside

theorem map_iff {text : β → α} {blocks : List β} :
    Grouped belongs (blocks.map text) ↔ Grouped (fun block => belongs (text block)) blocks :=
  List.triplewise_map

end Grouped

end TextLines
