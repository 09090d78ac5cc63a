import Chmicro.PrometheusText

set_option autoImplicit false

/- Metrics as the format sees them, with all their lines together. -/
namespace Chmicro.PrometheusText

open TextLines

inductive Kind where
  | counter
  | gauge
  | histogram
  deriving DecidableEq

namespace Kind

def text : Kind → Bytes
  | .counter => ascii "counter"
  | .gauge => ascii "gauge"
  | .histogram => ascii "histogram"

def suffixes : List Bytes := [ascii "_bucket", ascii "_sum", ascii "_count"]

/-- The names that the samples of a metric have. -/
def series (name : Bytes) : Kind → List Bytes
  | .counter | .gauge => [name]
  | .histogram => suffixes.map fun suffix => name ++ suffix

theorem text_injective {kind other : Kind} (same : kind.text = other.text) : kind = other := by
  cases kind <;> cases other <;> first | rfl | exact absurd same (by decide)

theorem series_ne_nil (name : Bytes) (kind : Kind) : kind.series name ≠ [] := by
  cases kind <;> simp [series, suffixes]

theorem mem_series {name series : Bytes} {kind : Kind} (listed : series ∈ kind.series name) :
    series = name ∨ kind = .histogram ∧ series ∈ Kind.histogram.series name := by
  cases kind with
  | counter => exact .inl (List.mem_singleton.mp listed)
  | gauge => exact .inl (List.mem_singleton.mp listed)
  | histogram => exact .inr ⟨rfl, listed⟩

/-- A series tells which histogram it belongs to. -/
theorem histogram_unique {name other series : Bytes} (mine : series ∈ Kind.histogram.series name)
    (its : series ∈ Kind.histogram.series other) : name = other := by
  obtain ⟨suffix, listed, rfl⟩ := List.mem_map.mp mine
  obtain ⟨ending, member, same⟩ := List.mem_map.mp its
  -- No two of the suffixes have the same last two letters.
  have endings : ∀ suffix ∈ suffixes, ∀ ending ∈ suffixes,
      suffix.reverse.take 2 = ending.reverse.take 2 → suffix = ending := by decide
  have long : ∀ suffix ∈ suffixes, 2 ≤ suffix.reverse.length := by decide
  have last : ending.reverse.take 2 = suffix.reverse.take 2 := by
    have reversed := congrArg (fun series => series.reverse.take 2) same
    simpa only [List.reverse_append, List.take_append_of_le_length (long suffix listed),
      List.take_append_of_le_length (long ending member)] using reversed
  rw [endings ending member suffix listed last] at same
  exact (List.append_cancel_right same).symm

theorem not_mem_series_histogram (name : Bytes) : name ∉ Kind.histogram.series name := by
  intro member
  obtain ⟨suffix, listed, same⟩ := List.mem_map.mp member
  have some_ : ∀ suffix ∈ suffixes, suffix ≠ [] := by decide
  exact some_ suffix listed (List.append_right_eq_self.mp same)

end Kind

/-- The rest of the sample's line starts where its name stops, and the line goes no further. -/
structure Legible (sample : Bytes × Bytes) : Prop where
  stops : ∃ byte rest, sample.2 = byte :: rest ∧ inName byte = false
  whole : newline ∉ sample.2

/-- A metric with its samples: the name of each, and the rest of its line. -/
structure Family where
  name : Bytes
  help : Bytes
  kind : Kind
  samples : List (Bytes × Bytes)
  series : ∀ series, series ∈ samples.map Prod.fst ↔ series ∈ kind.series name
  grouped : ∀ series, Grouped (fun sample => sample.1 = series) samples

namespace Family

def lines (family : Family) : List Line :=
  .help family.name family.help :: .type family.name family.kind.text ::
    family.samples.map fun sample => .sample sample.1 sample.2

/-- The lines of the families, and what follows the last end of line. -/
def allLines (families : List Family) : List Line := families.flatMap lines ++ [.blank]

section Written

/-- The lines of the family before they are read. -/
def written (family : Family) : List Bytes :=
  (helpStart ++ family.name ++ space :: family.help) ::
    (typeStart ++ family.name ++ space :: family.kind.text) ::
      family.samples.map fun sample => sample.1 ++ sample.2

/-- The name can be told from what follows it, and so can the name of each sample. -/
structure Readable (family : Family) : Prop where
  name : MetricName family.name
  samples : ∀ sample ∈ family.samples, Legible sample

variable {families : List Family} {family : Family}

theorem Readable.series (readable : family.Readable) {sample : Bytes × Bytes}
    (member : sample ∈ family.samples) : MetricName sample.1 := by
  have series := (family.series sample.1).mp (List.mem_map_of_mem member)
  rcases Kind.mem_series series with same | ⟨-, listed⟩
  · rw [same]
    exact readable.name
  · obtain ⟨suffix, known, same⟩ := List.mem_map.mp listed
    have legal : ∀ suffix ∈ Kind.suffixes, ∀ byte ∈ suffix,
        letter byte ∨ digit byte ∨ byte = colon := by decide +kernel
    rw [← same]
    exact readable.name.append (legal suffix known)

theorem Readable.newline_iff (readable : family.Readable) :
    (∀ line ∈ family.written, newline ∉ line) ↔ newline ∉ family.help := by
  have name := readable.name.newline
  have gap : newline ≠ space := by decide
  have help : newline ∉ helpStart ++ family.name ++ space :: family.help ↔
      newline ∉ family.help := by
    have start : newline ∉ helpStart := by decide
    simp [start, name, gap]
  have type : newline ∉ typeStart ++ family.name ++ space :: family.kind.text := by
    have start : newline ∉ typeStart := by decide
    have kind : newline ∉ family.kind.text := by cases family.kind <;> decide
    simp [start, name, gap, kind]
  have samples : ∀ line ∈ family.samples.map fun sample => sample.1 ++ sample.2,
      newline ∉ line := by
    intro line member
    obtain ⟨sample, listed, rfl⟩ := List.mem_map.mp member
    rw [List.mem_append, not_or]
    exact ⟨(readable.series listed).newline, (readable.samples sample listed).whole⟩
  rw [written, List.forall_mem_cons, List.forall_mem_cons, help]
  exact ⟨fun all => all.1, fun plain => ⟨plain, type, samples⟩⟩

theorem Readable.parseLine_written (readable : family.Readable) :
    family.written.map parseLine = family.lines := by
  have samples : (family.samples.map fun sample => sample.1 ++ sample.2).map parseLine =
      family.samples.map fun sample => .sample sample.1 sample.2 := by
    rw [List.map_map]
    apply List.map_congr_left
    intro sample member
    obtain ⟨byte, rest, same, stop⟩ := (readable.samples sample member).stops
    rw [Function.comp_apply, same]
    exact parseLine_sample (readable.series member) stop rest
  rw [written, List.map_cons, List.map_cons, parseLine_help readable.name,
    parseLine_type readable.name, samples, lines]

/-- The lines are read back just when no help breaks its own. -/
theorem parse_written_iff (readable : ∀ family ∈ families, family.Readable) :
    parse (ended newline (families.flatMap written)) = allLines families ↔
      ∀ family ∈ families, newline ∉ family.help := by
  have read : (families.flatMap written).map parseLine = families.flatMap lines := by
    rw [List.map_flatMap]
    exact List.flatMap_congr fun family member => (readable family member).parseLine_written
  have whole : (∀ line ∈ families.flatMap written, newline ∉ line) ↔
      ∀ family ∈ families, newline ∉ family.help := by
    simp only [List.forall_mem_flatMap]
    exact forall₂_congr fun family member => (readable family member).newline_iff
  rw [← whole]
  constructor
  · intro same
    have count := congrArg List.length same
    rw [allLines, ← read, parse, List.length_map, List.length_append, List.length_map] at count
    exact length_splitOn_ended_iff.mp count
  · intro plain
    rw [parse, splitOn_ended plain, List.map_append, read]
    rfl

end Written

end Family

end Chmicro.PrometheusText
