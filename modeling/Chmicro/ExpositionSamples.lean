import Chmicro.MetricsExposition
import Chmicro.PrometheusFamily

set_option autoImplicit false

namespace Chmicro

open PrometheusText TextLines

namespace MetricLabels

theorem newline_not_mem_escape (value : Bytes) : newline ∉ escape value := by
  intro member
  obtain ⟨c, -, inside⟩ := List.mem_flatMap.mp member
  split at inside
  · rename_i special
    have bytes : newline = backslash ∨ newline = c := by simpa using inside
    rcases bytes with same | rfl
    · exact absurd same (by decide)
    · exact absurd special (by decide)
  split at inside
  · exact absurd inside (by decide)
  · rename_i plain
    exact plain (List.mem_singleton.mp inside).symm

def pairText (label : Bytes × Bytes) : Bytes :=
  label.1 ++ ascii "=\"" ++ escape label.2 ++ ascii "\""

theorem foldl_writeLabel (oss : Bytes) (labels : List (Bytes × Bytes)) :
    (labels.foldl writeLabel (oss, false)).1 =
      oss ++ labels.flatMap fun label => ascii "," ++ pairText label := by
  induction labels generalizing oss with
  | nil => simp
  | cons label rest ih =>
      have comma : writeLabel (oss, false) label = (oss ++ (ascii "," ++ pairText label), false) := by
        simp [writeLabel, pairText]
      rw [List.foldl_cons, comma, ih, List.flatMap_cons, List.append_assoc]

/-- The first label has no comma before it, and each of the others has one. -/
theorem toPrometheusLabelText_cons {labels : MetricLabels} {label : Bytes × Bytes}
    {rest : List (Bytes × Bytes)} (kv : labels.kv = label :: rest) :
    labels.toPrometheusLabelText = brace :: (pairText label ++
      rest.flatMap (fun label => ascii "," ++ pairText label) ++ ascii "\x7d") := by
  have first : writeLabel (ascii "\x7b", true) label = (brace :: pairText label, false) := by
    simp [writeLabel, pairText, show ascii "\x7b" = [brace] from rfl]
  rw [toPrometheusLabelText, kv, if_neg (List.cons_ne_nil _ _), List.foldl_cons, first,
    foldl_writeLabel, List.cons_append, List.cons_append]

theorem newline_not_mem_labelText {labels : MetricLabels}
    (named : ∀ label ∈ labels.kv, LabelName label.1) :
    newline ∉ labels.toPrometheusLabelText := by
  have pair : ∀ label ∈ labels.kv, newline ∉ pairText label := by
    intro label member
    have name := (named label member).metricName.newline
    have value := newline_not_mem_escape label.2
    simp [pairText, name, value, show newline ∉ ascii "=\"" by decide,
      show newline ∉ ascii "\"" by decide]
  cases kv : labels.kv with
  | nil => simp [toPrometheusLabelText, kv]
  | cons label rest =>
      rw [kv, List.forall_mem_cons] at pair
      have more : newline ∉ rest.flatMap fun label => ascii "," ++ pairText label := by
        intro member
        obtain ⟨other, listed, inside⟩ := List.mem_flatMap.mp member
        rcases List.mem_append.mp inside with comma | later
        · exact absurd comma (by decide)
        · exact pair.2 other listed later
      have open_ : newline ≠ brace := by decide
      have close : newline ∉ ascii "\x7d" := by decide
      simp [toPrometheusLabelText_cons kv, open_, pair.1, more, close]

theorem labelText_stops (labels : MetricLabels) (value : Bytes) :
    ∃ byte rest, labels.toPrometheusLabelText ++ ascii " " ++ value = byte :: rest ∧
      inName byte = false := by
  cases kv : labels.kv with
  | nil =>
      refine ⟨space, value, ?_, rfl⟩
      simp [toPrometheusLabelText, kv, show ascii " " = [space] from rfl]
  | cons label rest =>
      rw [toPrometheusLabelText_cons kv]
      exact ⟨brace, _, rfl, rfl⟩

end MetricLabels

theorem legible_sample (series : Bytes) {labels : MetricLabels} {value : Bytes}
    (named : ∀ label ∈ labels.kv, LabelName label.1) (printed : newline ∉ value) :
    Legible (sample series labels value) := by
  refine ⟨labels.labelText_stops value, ?_⟩
  have text := MetricLabels.newline_not_mem_labelText named
  simp [sample, text, printed, show newline ∉ ascii " " by decide]

theorem labelName_assign {labels : MetricLabels} {name : Bytes} (value : Bytes)
    (valid : LabelName name) (named : ∀ label ∈ labels.kv, LabelName label.1) :
    ∀ label ∈ (labels.assign name value).kv, LabelName label.1 := by
  intro label member
  rcases MetricLabels.mem_insert member with rfl | listed
  · exact valid
  · exact named label listed

theorem labelName_le : LabelName (ascii "le") := by decide +kernel

def CounterEntry.family (name : Bytes) (entry : CounterEntry) : Family where
  name := name
  help := entry.help
  kind := .counter
  samples := entry.samples name
  series series := by simp [CounterEntry.samples, sample, Kind.series]
  grouped series := List.triplewise_singleton _ _

def GaugeEntry.family {F : Type} (numbers : NumberText F) (name : Bytes) (entry : GaugeEntry F) :
    Family where
  name := name
  help := entry.help
  kind := .gauge
  samples := entry.samples numbers name
  series series := by simp [GaugeEntry.samples, sample, Kind.series]
  grouped series := List.triplewise_singleton _ _

section Histogram

variable {F : Type} {numbers : NumberText F} {name : Bytes}

theorem bucketSamples_series {labels : MetricLabels} {buckets : List (F × UInt64)}
    {cumulative : UInt64} {line : Bytes × Bytes}
    (member : line ∈ bucketSamples numbers name labels cumulative buckets) :
    line.1 = name ++ ascii "_bucket" := by
  induction buckets generalizing cumulative with
  | nil => cases member
  | cons bucket rest ih =>
      rcases List.mem_cons.mp member with rfl | later
      · rfl
      · exact ih later

theorem bucketSamples_length (labels : MetricLabels) (buckets : List (F × UInt64))
    (cumulative : UInt64) :
    (bucketSamples numbers name labels cumulative buckets).length = buckets.length := by
  induction buckets generalizing cumulative with
  | nil => rfl
  | cons bucket rest ih => rw [bucketSamples, List.length_cons, ih, List.length_cons]

theorem bucketSamples_legible {labels : MetricLabels} {buckets : List (F × UInt64)}
    {cumulative : UInt64} (named : ∀ label ∈ labels.kv, LabelName label.1) :
    ∀ line ∈ bucketSamples numbers name labels cumulative buckets, Legible line := by
  induction buckets generalizing cumulative with
  | nil => simp [bucketSamples]
  | cons bucket rest ih =>
      refine List.forall_mem_cons.mpr ⟨?_, ih⟩
      exact legible_sample _ (labelName_assign _ labelName_le named) (newline_not_mem_decimal _)

variable [LinearOrder F]

theorem HistogramEntry.samples_length (entry : HistogramEntry F) :
    (entry.samples numbers name).length = entry.histogram.buckets.length + 3 := by
  have sized := entry.histogram.sized
  rw [HistogramEntry.samples, List.length_append, bucketSamples_length, List.length_zip, sized,
    Nat.min_self]
  rfl

/-- The buckets of a histogram, the last one included, stand before its sum and its count. -/
theorem HistogramEntry.samples_grouped (entry : HistogramEntry F) (series : Bytes) :
    Grouped (fun line => line.1 = series) (entry.samples numbers name) := by
  have parts : entry.samples numbers name =
      (bucketSamples numbers name entry.labels 0
          (entry.histogram.buckets.zip entry.histogram.bucketCounts) ++
        [sample (name ++ ascii "_bucket") (entry.labels.assign (ascii "le") (ascii "+Inf"))
          (unsignedText entry.histogram.count)]) ++
      [sample (name ++ ascii "_sum") entry.labels (numbers.stream entry.histogram.sum),
        sample (name ++ ascii "_count") entry.labels (unsignedText entry.histogram.count)] := by
    simp [HistogramEntry.samples]
  rw [parts]
  generalize hfront : bucketSamples numbers name entry.labels 0
    (entry.histogram.buckets.zip entry.histogram.bucketCounts) ++ _ = front
  have buckets : ∀ line ∈ front, line.1 = name ++ ascii "_bucket" := by
    intro line member
    rw [← hfront] at member
    rcases List.mem_append.mp member with bucket | last
    · exact bucketSamples_series bucket
    · rw [List.mem_singleton.mp last]
      rfl
  by_cases bucket : series = name ++ ascii "_bucket"
  · subst bucket
    apply Grouped.append_none (.of_forall buckets)
    intro line member same
    simp only [List.mem_cons, List.not_mem_nil, or_false] at member
    rcases member with rfl | rfl
    · exact absurd (List.append_cancel_left same) (by decide)
    · exact absurd (List.append_cancel_left same) (by decide)
  · have others : ∀ line ∈ front, line.1 ≠ series := by
      intro line member same
      exact bucket (same.symm.trans (buckets line member))
    exact Grouped.none_append others (List.triplewise_pair _ _ _)

def HistogramEntry.family (numbers : NumberText F) (name : Bytes) (entry : HistogramEntry F) :
    Family where
  name := name
  help := entry.help
  kind := .histogram
  samples := entry.samples numbers name
  series series := by
    constructor
    · intro member
      obtain ⟨line, listed, rfl⟩ := List.mem_map.mp member
      rcases List.mem_append.mp listed with bucket | last
      · rw [bucketSamples_series bucket]
        simp [Kind.series, Kind.suffixes]
      · simp only [List.mem_cons, List.not_mem_nil, or_false] at last
        rcases last with rfl | rfl | rfl <;> simp [sample, Kind.series, Kind.suffixes]
    · intro listed
      simp only [Kind.series, Kind.suffixes, List.map_cons, List.map_nil, List.mem_cons,
        List.not_mem_nil, or_false] at listed
      rcases listed with rfl | rfl | rfl <;> simp [HistogramEntry.samples, sample]
  grouped := entry.samples_grouped

end Histogram

end Chmicro
