import Mathlib.Data.List.Basic

set_option autoImplicit false

/- Lists of named values written out as lines, with nothing escaped. -/
namespace KeyedText

variable {α : Type}

/-- What stands before the first separator and what stands after it are determined. -/
theorem append_separator_inj {separator : α} {first second before after : List α}
    (same : first ++ separator :: before = second ++ separator :: after)
    (absent : separator ∉ first) (missing : separator ∉ second) :
    first = second ∧ before = after := by
  induction first generalizing second with
  | nil =>
      cases second with
      | nil => exact ⟨rfl, List.tail_eq_of_cons_eq same⟩
      | cons head rest =>
          simp only [List.nil_append, List.cons_append, List.cons.injEq] at same
          exact (missing (by simp [same.1])).elim
  | cons head rest ih =>
      cases second with
      | nil =>
          simp only [List.nil_append, List.cons_append, List.cons.injEq] at same
          exact (absent (by simp [same.1])).elim
      | cons other others =>
          simp only [List.cons_append, List.cons.injEq] at same
          obtain ⟨tails, texts⟩ := ih same.2 (fun member => absent (List.mem_cons_of_mem _ member))
            (fun member => missing (List.mem_cons_of_mem _ member))
          exact ⟨by rw [same.1, tails], texts⟩

variable (equals newline : α)

def entryText (entry : List α × List α) : List α :=
  entry.1 ++ equals :: (entry.2 ++ [newline])

def text (entries : List (List α × List α)) : List α :=
  entries.flatMap (entryText equals newline)

theorem text_cons (entry : List α × List α) (rest : List (List α × List α)) :
    text equals newline (entry :: rest) =
      entry.1 ++ equals :: (entry.2 ++ newline :: text equals newline rest) := by
  simp [text, entryText]

theorem text_eq_nil {entries : List (List α × List α)} :
    text equals newline entries = [] ↔ entries = [] := by
  cases entries with
  | nil => simp [text]
  | cons entry rest => simp [text_cons]

/-- The name can be told from the rest of its line. -/
structure Named (name : List α) : Prop where
  newline : newline ∉ name
  equals : equals ∉ name

instance [DecidableEq α] (name : List α) : Decidable (Named equals newline name) :=
  decidable_of_iff (newline ∉ name ∧ equals ∉ name)
    ⟨fun holds => ⟨holds.1, holds.2⟩, fun holds => ⟨holds.newline, holds.equals⟩⟩

/-- No line of the value but the first starts like an entry that may come after this one. -/
def Framed (before : List α → List α → Prop) (entry : List α × List α) : Prop :=
  ∀ first name last, entry.2 = first ++ newline :: (name ++ equals :: last) →
    Named equals newline name → ¬ before entry.1 name

theorem Framed.of_not_mem {before : List α → List α → Prop} {entry : List α × List α}
    (single : newline ∉ entry.2) : Framed equals newline before entry := by
  intro first name last same _
  exact (single (by simp [same])).elim

theorem Framed.of_no_sign {before : List α → List α → Prop} {entry : List α × List α}
    (plain : equals ∉ entry.2) : Framed equals newline before entry := by
  intro first name last same _
  exact (plain (by simp [same])).elim

variable {equals newline} {before : List α → List α → Prop}

/-- A value does not go on where another one ends, since the next entry would stand in it. -/
theorem not_beginning {name value longer : List α} {rest : List (List α × List α)} {more : List α}
    (different : equals ≠ newline)
    (sorted : ∀ entry ∈ rest, before name entry.1)
    (named : ∀ entry ∈ rest, Named equals newline entry.1)
    (framed : Framed equals newline before (name, longer))
    {gap : List α} (split : longer = value ++ newline :: gap)
    (same : text equals newline rest = gap ++ newline :: more) : False := by
  cases rest with
  | nil => simp [text] at same
  | cons entry rest =>
      have legal := named entry List.mem_cons_self
      have later := sorted entry List.mem_cons_self
      rw [text_cons] at same
      rcases List.append_eq_append_iff.mp same with ⟨left, inside, ahead⟩ | ⟨left, inside, ahead⟩
      · -- The longer value holds the name and the sign after it, or ends right before the sign.
        cases left with
        | nil =>
            simp only [List.nil_append, List.cons.injEq] at ahead
            exact different ahead.1
        | cons head left =>
            simp only [List.cons_append, List.cons.injEq] at ahead
            refine framed value entry.1 left ?_ legal later
            rw [split, inside, ahead.1]
      · -- The longer value ends inside the name.
        cases left with
        | nil =>
            simp only [List.nil_append, List.cons.injEq] at ahead
            exact different ahead.1.symm
        | cons head left =>
            simp only [List.cons_append, List.cons.injEq] at ahead
            exact legal.newline (by simp [inside, ahead.1])

/-- Neither value can be a proper beginning of the other. -/
theorem values_eq {name value content : List α} {rest others : List (List α × List α)}
    (different : equals ≠ newline)
    (sorted : ∀ entry ∈ rest, before name entry.1)
    (ordered : ∀ entry ∈ others, before name entry.1)
    (named : ∀ entry ∈ rest, Named equals newline entry.1)
    (legal : ∀ entry ∈ others, Named equals newline entry.1)
    (framed : Framed equals newline before (name, value))
    (closed : Framed equals newline before (name, content))
    (same : value ++ newline :: text equals newline rest =
      content ++ newline :: text equals newline others) :
    value = content ∧ text equals newline rest = text equals newline others := by
  rcases List.append_eq_append_iff.mp same with ⟨left, longer, ahead⟩ | ⟨left, longer, ahead⟩
  · cases left with
    | nil =>
        rw [List.append_nil] at longer
        exact ⟨longer.symm, List.tail_eq_of_cons_eq ahead⟩
    | cons head left =>
        simp only [List.cons_append, List.cons.injEq] at ahead
        obtain ⟨rfl, ahead⟩ := ahead
        exact (not_beginning different sorted named closed longer ahead).elim
  · cases left with
    | nil =>
        rw [List.append_nil] at longer
        exact ⟨longer, (List.tail_eq_of_cons_eq ahead).symm⟩
    | cons head left =>
        simp only [List.cons_append, List.cons.injEq] at ahead
        obtain ⟨rfl, ahead⟩ := ahead
        exact (not_beginning different ordered legal framed longer ahead).elim

/-- Framed entries are determined by their text. -/
theorem text_injective (different : equals ≠ newline) {entries others : List (List α × List α)}
    (sorted : entries.Pairwise fun entry later => before entry.1 later.1)
    (ordered : others.Pairwise fun entry later => before entry.1 later.1)
    (named : ∀ entry ∈ entries, Named equals newline entry.1)
    (legal : ∀ entry ∈ others, Named equals newline entry.1)
    (framed : ∀ entry ∈ entries, Framed equals newline before entry)
    (closed : ∀ entry ∈ others, Framed equals newline before entry)
    (same : text equals newline entries = text equals newline others) : entries = others := by
  induction entries generalizing others with
  | nil => exact ((text_eq_nil equals newline).mp same.symm).symm
  | cons entry entries ih =>
      cases others with
      | nil => exact (text_eq_nil equals newline).mp same
      | cons other others =>
          obtain ⟨name, value⟩ := entry
          obtain ⟨label, content⟩ := other
          rw [List.pairwise_cons] at sorted ordered
          rw [List.forall_mem_cons] at named legal framed closed
          rw [text_cons, text_cons] at same
          obtain ⟨rfl, tails⟩ := append_separator_inj same named.1.equals legal.1.equals
          obtain ⟨rfl, texts⟩ := values_eq different sorted.1 ordered.1 named.2 legal.2 framed.1
            closed.1 tails
          rw [ih sorted.2 ordered.2 named.2 legal.2 framed.2 closed.2 texts]

/-- Entries that are not framed share their text with others. -/
theorem exists_text_eq {entries : List (List α × List α)}
    (sorted : entries.Pairwise fun entry later => before entry.1 later.1)
    (named : ∀ entry ∈ entries, Named equals newline entry.1)
    (transitive : ∀ {first second third : List α}, before first second →
      before second third → before first third)
    {entry : List α × List α} (member : entry ∈ entries)
    (open_ : ¬ Framed equals newline before entry) :
    ∃ others, others ≠ entries ∧ (others.Pairwise fun entry later => before entry.1 later.1) ∧
      (∀ entry ∈ others, Named equals newline entry.1) ∧
      text equals newline others = text equals newline entries := by
  obtain ⟨front, back, rfl⟩ := List.append_of_mem member
  simp only [Framed, not_forall, not_not] at open_
  obtain ⟨first, name, last, value, legal, later⟩ := open_
  -- The second entry takes the rest of the value and every entry after it.
  have ending : ∃ content, content ++ [newline] = last ++ newline :: text equals newline back := by
    rcases List.eq_nil_or_concat back with rfl | ⟨middle, final, rfl⟩
    · exact ⟨last, rfl⟩
    · refine ⟨last ++ newline :: (text equals newline middle ++ (final.1 ++ equals :: final.2)), ?_⟩
      simp [text, entryText]
  obtain ⟨content, ends⟩ := ending
  rw [List.pairwise_append] at sorted
  refine ⟨front ++ [(entry.1, first), (name, content)], fun same => ?_, ?_, ?_, ?_⟩
  · have heads := List.append_cancel_left same
    simp only [List.cons.injEq] at heads
    have shorter := congrArg (fun entry => entry.2.length) heads.1
    simp only [value, List.length_append, List.length_cons] at shorter
    omega
  · rw [List.pairwise_append]
    refine ⟨sorted.1, by simpa using later, fun earlier listed other new => ?_⟩
    have ahead := sorted.2.2 earlier listed entry List.mem_cons_self
    simp only [List.mem_cons, List.not_mem_nil, or_false] at new
    rcases new with rfl | rfl
    · exact ahead
    · exact transitive ahead later
  · intro other new
    rcases List.mem_append.mp new with listed | new
    · exact named other (List.mem_append_left _ listed)
    · simp only [List.mem_cons, List.not_mem_nil, or_false] at new
      rcases new with rfl | rfl
      · exact named entry member
      · exact legal
  · simp [text, entryText, value, ends]

end KeyedText
