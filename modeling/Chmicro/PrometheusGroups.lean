import Chmicro.PrometheusFamily

set_option autoImplicit false

/- What the format asks of the order of the lines, and the families that meet it. -/
namespace Chmicro.PrometheusText

open TextLines

namespace Line

def helpName : Line → Option Bytes
  | .help name _ => some name
  | _ => none

def typeName : Line → Option Bytes
  | .type name _ => some name
  | _ => none

/-- A sample of the metric. Where the metric is a histogram, its series belong to it. -/
def SampleOf (lines : List Line) (name : Bytes) (line : Line) : Prop :=
  ∃ series rest, line = .sample series rest ∧
    (series = name ∨
      .type name Kind.histogram.text ∈ lines ∧ series ∈ Kind.histogram.series name)

variable {lines : List Line} {name : Bytes}

theorem not_sampleOf_blank : ¬ SampleOf lines name .blank := by
  rintro ⟨series, rest, other, -⟩
  cases other

theorem not_sampleOf_help (named text : Bytes) : ¬ SampleOf lines name (.help named text) := by
  rintro ⟨series, rest, other, -⟩
  cases other

theorem not_sampleOf_type (named kind : Bytes) : ¬ SampleOf lines name (.type named kind) := by
  rintro ⟨series, rest, other, -⟩
  cases other

end Line

/-- A name has at most one line of help and one of type, and its samples form one group
after them. -/
structure WellFormed (lines : List Line) : Prop where
  help : (lines.filterMap Line.helpName).Nodup
  type : (lines.filterMap Line.typeName).Nodup
  after : lines.Pairwise fun line later => ∀ name, line.SampleOf lines name →
    later.helpName ≠ some name ∧ later.typeName ≠ some name
  grouped : ∀ name, Grouped (Line.SampleOf lines name) lines

namespace Family

/-- No two families have one name, and none is named like a series of a histogram. -/
structure Apart (families : List Family) : Prop where
  names : (families.map Family.name).Nodup
  series : ∀ histogram ∈ families, histogram.kind = .histogram → ∀ family ∈ families,
    family.name ∉ Kind.histogram.series histogram.name

theorem mem_allLines {families : List Family} {line : Line} :
    line ∈ allLines families ↔ (∃ family ∈ families, line ∈ family.lines) ∨ line = .blank := by
  simp [allLines]

/-- The names that some lines carry are the families' own, when each family has one such line
and no sample is one. -/
theorem allLines_names {select : Line → Option Bytes} (blank : select .blank = none)
    (sample : ∀ series rest, select (.sample series rest) = none)
    (one : ∀ name help kind,
      [Line.help name help, .type name kind].filterMap select = [name])
    (families : List Family) :
    (allLines families).filterMap select = families.map Family.name := by
  have none_ (samples : List (Bytes × Bytes)) :
      (samples.map fun sample => Line.sample sample.1 sample.2).filterMap select = [] := by
    rw [List.filterMap_map, List.filterMap_eq_nil_iff]
    exact fun _ _ => sample _ _
  have family (family : Family) : family.lines.filterMap select = [family.name] := by
    have parts : family.lines =
        [.help family.name family.help, .type family.name family.kind.text] ++
          family.samples.map fun sample => .sample sample.1 sample.2 := rfl
    rw [parts, List.filterMap_append, one, none_, List.append_nil]
  simp only [allLines, List.filterMap_append, List.filterMap_flatMap, family,
    List.filterMap_cons_none blank, List.filterMap_nil, List.append_nil]
  exact List.map_eq_flatMap.symm

theorem allLines_help (families : List Family) :
    (allLines families).filterMap Line.helpName = families.map Family.name :=
  allLines_names rfl (fun _ _ => rfl) (fun _ _ _ => rfl) families

theorem allLines_type (families : List Family) :
    (allLines families).filterMap Line.typeName = families.map Family.name :=
  allLines_names rfl (fun _ _ => rfl) (fun _ _ _ => rfl) families

section Samples

variable {families : List Family} {family : Family} {name : Bytes}

theorem type_mem_iff : .type name Kind.histogram.text ∈ allLines families ↔
    ∃ family ∈ families, family.name = name ∧ family.kind = .histogram := by
  rw [mem_allLines]
  constructor
  · rintro (⟨family, member, inside⟩ | blank)
    · simp only [lines, List.mem_cons, reduceCtorEq, Line.type.injEq, List.mem_map, and_false,
        exists_false, false_or, or_false] at inside
      exact ⟨family, member, inside.1.symm, (Kind.text_injective inside.2).symm⟩
    · cases blank
  · rintro ⟨family, member, rfl, kind⟩
    exact .inl ⟨family, member, by simp [lines, kind]⟩

/-- Each series of the kind has a sample. -/
theorem exists_sample {series : Bytes} (listed : series ∈ family.kind.series family.name) :
    ∃ rest, .sample series rest ∈ family.lines := by
  obtain ⟨⟨named, rest⟩, member, rfl⟩ := List.mem_map.mp ((family.series series).mpr listed)
  refine ⟨rest, List.mem_cons_of_mem _ (List.mem_cons_of_mem _ ?_)⟩
  exact List.mem_map.mpr ⟨_, member, rfl⟩

theorem sampleOf_own (member : family ∈ families) {series : Bytes}
    (listed : series ∈ family.kind.series family.name) (rest : Bytes) :
    Line.SampleOf (allLines families) family.name (.sample series rest) := by
  refine ⟨series, rest, rfl, ?_⟩
  rcases Kind.mem_series listed with same | ⟨kind, whole⟩
  · exact .inl same
  · exact .inr ⟨type_mem_iff.mpr ⟨family, member, rfl, kind⟩, whole⟩

theorem exists_own_sample (member : family ∈ families) :
    ∃ line ∈ family.lines, line.SampleOf (allLines families) family.name := by
  obtain ⟨series, listed⟩ :=
    List.exists_mem_of_ne_nil _ (Kind.series_ne_nil family.name family.kind)
  obtain ⟨rest, inside⟩ := exists_sample listed
  exact ⟨_, inside, sampleOf_own member listed rest⟩

/-- A sample of a name stands in the family of that name, or in the histogram whose series
has that name. -/
theorem Apart.sampleOf (apart : Apart families) (member : family ∈ families) {line : Line}
    (inside : line ∈ family.lines) (sample : line.SampleOf (allLines families) name) :
    family.name = name ∨
      family.kind = .histogram ∧ name ∈ Kind.histogram.series family.name := by
  obtain ⟨series, rest, rfl, belongs⟩ := sample
  have listed : series ∈ family.kind.series family.name := by
    refine (family.series series).mp (List.mem_map.mpr ⟨(series, rest), ?_, rfl⟩)
    simpa [lines] using inside
  rcases Kind.mem_series listed with same | ⟨kind, whole⟩
  · rw [same] at belongs
    rcases belongs with own | ⟨typed, its⟩
    · exact .inl own
    · obtain ⟨histogram, other, rfl, kinds⟩ := type_mem_iff.mp typed
      exact absurd its (apart.series histogram other kinds family member)
  · rcases belongs with own | ⟨-, its⟩
    · rw [own] at whole
      exact .inr ⟨kind, whole⟩
    · exact .inl (Kind.histogram_unique whole its)

theorem Apart.unique (apart : Apart families) {other : Family} (member : family ∈ families)
    (listed : other ∈ families)
    (mine : ∃ line ∈ family.lines, line.SampleOf (allLines families) name)
    (its : ∃ line ∈ other.lines, line.SampleOf (allLines families) name) :
    family.name = other.name := by
  obtain ⟨line, inside, sample⟩ := mine
  obtain ⟨far, there, too⟩ := its
  rcases apart.sampleOf member inside sample with rfl | ⟨kind, series⟩ <;>
    rcases apart.sampleOf listed there too with same | ⟨typed, whole⟩
  · exact same.symm
  · exact absurd whole (apart.series other listed typed family member)
  · rw [← same] at series
    exact absurd series (apart.series family member kind other listed)
  · exact Kind.histogram_unique series whole

/-- Two families that both have samples of a name are parted by the help of the later one. -/
theorem not_grouped {front back : List Family} {earlier later : Family}
    (member : earlier ∈ front)
    (mine : ∃ line ∈ earlier.lines, line.SampleOf (allLines (front ++ later :: back)) name)
    (its : ∃ line ∈ later.lines, line.SampleOf (allLines (front ++ later :: back)) name) :
    ¬ Grouped (Line.SampleOf (allLines (front ++ later :: back)) name)
      (allLines (front ++ later :: back)) := by
  intro grouped
  have help := @Line.not_sampleOf_help (allLines (front ++ later :: back)) name later.name later.help
  have parts : allLines (front ++ later :: back) = front.flatMap lines ++
      .help later.name later.help ::
        (later.lines.tail ++ (back.flatMap lines ++ [.blank])) := by
    simp [allLines, lines]
  obtain ⟨line, inside, sample⟩ := mine
  obtain ⟨other, there, too⟩ := its
  generalize Line.SampleOf (allLines (front ++ later :: back)) name = belongs
    at grouped help sample too
  rw [parts] at grouped
  rcases grouped.gap help with none_ | none_
  · exact none_ line (List.mem_flatMap.mpr ⟨earlier, member, inside⟩) sample
  · rcases List.mem_cons.mp there with rfl | below
    · exact help too
    · exact none_ other (List.mem_append_left _ below) too

theorem WellFormed.apart (wellFormed : WellFormed (allLines families)) : Apart families := by
  have names : (families.map Family.name).Nodup := by
    rw [← allLines_help]
    exact wellFormed.help
  constructor
  · exact names
  intro histogram member kind family listed named
  have series : ∃ line ∈ histogram.lines, line.SampleOf (allLines families) family.name := by
    have listed : family.name ∈ histogram.kind.series histogram.name := by
      rw [kind]
      exact named
    obtain ⟨rest, inside⟩ := exists_sample listed
    exact ⟨_, inside, family.name, rest, rfl, .inl rfl⟩
  have own := exists_own_sample listed
  have grouped := wellFormed.grouped family.name
  have different : family ≠ histogram := by
    rintro rfl
    exact Kind.not_mem_series_histogram _ named
  obtain ⟨front, back, rfl⟩ := List.append_of_mem member
  rcases List.mem_append.mp listed with before | after
  · exact not_grouped before own series grouped
  · obtain ⟨between, rest, rfl⟩ :=
      List.append_of_mem ((List.mem_cons.mp after).resolve_left different)
    have order : front ++ histogram :: (between ++ family :: rest) =
        (front ++ histogram :: between) ++ family :: rest := by simp
    rw [order] at grouped series own
    exact not_grouped (by simp) series own grouped

/-- In one family the samples of a name stand together. -/
theorem Apart.grouped (apart : Apart families) (member : family ∈ families) (name : Bytes) :
    Grouped (Line.SampleOf (allLines families) name) family.lines := by
  refine .cons (Line.not_sampleOf_help _ _) (.cons (Line.not_sampleOf_type _ _) ?_)
  rw [Grouped.map_iff]
  by_cases named : family.name = name
  · subst named
    apply Grouped.of_forall
    intro sample listed
    have series := (family.series sample.1).mp (List.mem_map_of_mem listed)
    exact sampleOf_own member series sample.2
  by_cases series : family.kind = .histogram ∧ name ∈ Kind.histogram.series family.name
  · -- No family has the name of a series, so only that series is meant.
    have only (sample : Bytes × Bytes) :
        (Line.sample sample.1 sample.2).SampleOf (allLines families) name ↔ sample.1 = name := by
      constructor
      · rintro ⟨_, _, same, rfl | ⟨typed, -⟩⟩
        · exact (Line.sample.inj same).1
        · obtain ⟨other, listed, rfl, -⟩ := type_mem_iff.mp typed
          exact absurd series.2 (apart.series family member series.1 other listed)
      · intro same
        exact ⟨_, _, rfl, .inl same⟩
    simpa only [only] using family.grouped name
  · apply Grouped.of_none
    intro sample listed belongs
    have inside : Line.sample sample.1 sample.2 ∈ family.lines :=
      List.mem_cons_of_mem _ (List.mem_cons_of_mem _ (List.mem_map_of_mem listed))
    rcases apart.sampleOf member inside belongs with same | whole
    · exact named same
    · exact series whole

theorem header_name {line : Line} (inside : line ∈ family.lines)
    (header : line.helpName = some name ∨ line.typeName = some name) : family.name = name := by
  simp only [lines, List.mem_cons, List.mem_map] at inside
  rcases inside with rfl | rfl | ⟨sample, -, rfl⟩
  · simpa [Line.helpName, Line.typeName] using header
  · simpa [Line.helpName, Line.typeName] using header
  · simp [Line.helpName, Line.typeName] at header

/-- In one family the help and the type stand before the samples. -/
theorem lines_after (whole : List Line) (family : Family) :
    family.lines.Pairwise fun line later => ∀ name, line.SampleOf whole name →
      later.helpName ≠ some name ∧ later.typeName ≠ some name := by
  refine List.pairwise_cons.mpr ⟨?_, List.pairwise_cons.mpr ⟨?_, ?_⟩⟩
  · intro later _ name sample
    exact absurd sample (Line.not_sampleOf_help _ _)
  · intro later _ name sample
    exact absurd sample (Line.not_sampleOf_type _ _)
  · rw [List.pairwise_map]
    apply List.pairwise_of_forall
    intro sample later name _
    simp [Line.helpName, Line.typeName]

theorem Apart.after (apart : Apart families) :
    (allLines families).Pairwise fun line later => ∀ name,
      line.SampleOf (allLines families) name →
        later.helpName ≠ some name ∧ later.typeName ≠ some name := by
  have different := List.pairwise_map.mp apart.names
  refine List.pairwise_append.mpr ⟨List.pairwise_flatMap.mpr ⟨?_, ?_⟩,
    List.pairwise_singleton _ _, ?_⟩
  · intro family _
    exact family.lines_after (allLines families)
  · apply different.imp_of_mem
    intro family later member listed names line inside other there name sample
    by_contra either
    obtain rfl := @header_name later name other there (by tauto)
    exact names (apart.unique member listed ⟨line, inside, sample⟩ (exists_own_sample listed))
  · intro line _ last blank name _
    rw [List.mem_singleton.mp blank]
    simp [Line.helpName, Line.typeName]

/-- Families make a well-formed text just when their names are apart. -/
theorem wellFormed_iff : WellFormed (allLines families) ↔ Apart families := by
  refine ⟨WellFormed.apart, fun apart => ⟨?_, ?_, apart.after, fun name => ?_⟩⟩
  · rw [allLines_help]
    exact apart.names
  · rw [allLines_type]
    exact apart.names
  · have blank : ∀ line ∈ [Line.blank], ¬ line.SampleOf (allLines families) name :=
      List.forall_mem_singleton.mpr Line.not_sampleOf_blank
    refine .append_none (.flatMap (fun family member => apart.grouped member name) ?_) blank
    have names := List.pairwise_map.mp apart.names
    apply names.imp_of_mem
    intro family later member listed different
    by_contra both
    simp only [not_or, not_forall, not_not, exists_prop] at both
    exact different (apart.unique member listed both.1 both.2)

end Samples

end Family

end Chmicro.PrometheusText
