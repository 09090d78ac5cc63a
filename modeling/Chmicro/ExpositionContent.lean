import Mathlib
import Chmicro.ExpositionFraming
import Chmicro.ExpositionLabels
import Chmicro.ListSet

set_option autoImplicit false

namespace Chmicro

open PrometheusText TextLines

theorem signedText_injective {v w : Int64} (same : signedText v = signedText w) : v = w := by
  have headed (n m : Nat) : ascii "-" ++ decimal n ≠ decimal m := by
    intro equal
    have minus : 45 ∈ decimal m := by
      rw [← equal]
      exact List.mem_cons_self
    exact absurd (mem_decimal minus) (by decide)
  unfold signedText at same
  apply Int64.toInt_inj.mp
  simp only [Int64.lt_iff_toInt_lt, Int64.toInt_zero] at same
  split_ifs at same with negative below below
  · have sizes := decimal_injective (List.append_cancel_left same)
    omega
  · exact absurd same (headed _ _)
  · exact absurd same.symm (headed _ _)
  · have sizes := decimal_injective same
    omega

namespace MetricLabels

theorem readBytes_append (reading : Reading) (text more : Bytes) :
    readBytes reading (text ++ more) = (readBytes reading text).bind (readBytes · more) :=
  List.foldlM_append

/-- The reader takes nothing after the closing brace. -/
theorem readBytes_closed {reading : Reading} {text more : Bytes}
    {labels others : List (Bytes × Bytes)} (read : readBytes reading text = some (labels, .closed))
    (whole : readBytes reading (text ++ more) = some (others, .closed)) : more = [] := by
  rw [readBytes_append, read, Option.bind_some] at whole
  cases more with
  | nil => rfl
  | cons c rest => cases whole

/-- Where the reader closes two texts, none of them goes on in the other. -/
theorem readBytes_unique {reading : Reading} {body other value text : Bytes}
    {labels others : List (Bytes × Bytes)} (read : readBytes reading body = some (labels, .closed))
    (reads : readBytes reading other = some (others, .closed))
    (same : body ++ value = other ++ text) : body = other ∧ value = text := by
  rcases List.append_eq_append_iff.mp same with ⟨more, longer, tail⟩ | ⟨more, longer, tail⟩
  · rw [longer] at reads
    obtain rfl := readBytes_closed read reads
    exact ⟨(longer.trans (List.append_nil body)).symm, tail⟩
  · rw [longer] at read
    obtain rfl := readBytes_closed reads read
    exact ⟨longer.trans (List.append_nil other), tail.symm⟩

/-- Text that the reader takes as labels, to its end. -/
theorem labelText_read {labels : MetricLabels} (named : ∀ label ∈ labels.kv, LabelName label.1)
    (some_ : labels.kv ≠ []) : ∃ body, labels.toPrometheusLabelText = brace :: body ∧
      readBytes ([], .name []) body = some (labels.kv, .closed) := by
  obtain ⟨label, rest, kv⟩ := List.exists_cons_of_ne_nil some_
  have parsed := parseLabels_toPrometheusLabelText named
  refine ⟨_, toPrometheusLabelText_cons kv, ?_⟩
  rw [toPrometheusLabelText_cons kv, parseLabels, if_neg (not_not.mpr rfl)] at parsed
  split at parsed
  · rename_i read
    rw [read, Option.some.inj parsed]
  · cases parsed

/-- A reader of labels and of what follows them finds where the labels end. -/
theorem labelText_unique {labels others : MetricLabels} {value text : Bytes}
    (named : ∀ label ∈ labels.kv, LabelName label.1)
    (otherNamed : ∀ label ∈ others.kv, LabelName label.1)
    (same : labels.toPrometheusLabelText ++ ascii " " ++ value =
      others.toPrometheusLabelText ++ ascii " " ++ text) : labels = others ∧ value = text := by
  have gap (value : Bytes) : ascii " " ++ value = space :: value := rfl
  have bare {labels : MetricLabels} (empty : labels.kv = []) : labels.toPrometheusLabelText = [] :=
    if_pos empty
  have equal {labels others : MetricLabels} (kv : labels.kv = others.kv) : labels = others := by
    cases labels
    cases others
    cases kv
    rfl
  rw [List.append_assoc, List.append_assoc, gap, gap] at same
  by_cases empty : labels.kv = []
  · by_cases none_ : others.kv = []
    · rw [bare empty, bare none_] at same
      exact ⟨equal (empty.trans none_.symm), (List.cons.inj same).2⟩
    · obtain ⟨body, written, -⟩ := labelText_read otherNamed none_
      rw [bare empty, written] at same
      exact absurd (List.cons.inj same).1 (by decide)
  · obtain ⟨body, written, read⟩ := labelText_read named empty
    by_cases none_ : others.kv = []
    · rw [bare none_, written] at same
      exact absurd (List.cons.inj same).1 (by decide)
    · obtain ⟨rest, its, reads⟩ := labelText_read otherNamed none_
      rw [written, its] at same
      obtain ⟨bodies, values⟩ := readBytes_unique read reads (List.cons.inj same).2
      rw [bodies, reads] at read
      have kv := congrArg Prod.fst (Option.some.inj read)
      exact ⟨equal kv.symm, (List.cons.inj values).2⟩

theorem insert_injective {name value other : Bytes} {labels : List (Bytes × Bytes)}
    (same : insert name value labels = insert name other labels) : value = other := by
  induction labels with
  | nil => simpa [insert] using same
  | cons label rest ih =>
      unfold insert at same
      split_ifs at same
      · exact ih (List.cons.inj same).2
      · simpa using same
      · simpa using same

end MetricLabels

theorem sample_unique {series name value text : Bytes} {labels others : MetricLabels}
    (named : ∀ label ∈ labels.kv, LabelName label.1)
    (otherNamed : ∀ label ∈ others.kv, LabelName label.1)
    (same : sample series labels value = sample name others text) :
    labels = others ∧ value = text :=
  MetricLabels.labelText_unique named otherNamed (Prod.mk.inj same).2

section Buckets

variable {F : Type} {numbers : NumberText F} {name : Bytes} {labels : MetricLabels}

/-- The counts of the buckets can be told from the sums that are written. -/
theorem bucketSamples_unique (named : ∀ label ∈ labels.kv, LabelName label.1)
    {buckets others : List (F × UInt64)} {cumulative : UInt64} :
    bucketSamples numbers name labels cumulative buckets =
        bucketSamples numbers name labels cumulative others ↔
      buckets.map (Prod.map numbers.toString id) = others.map (Prod.map numbers.toString id) := by
  induction buckets generalizing others cumulative with
  | nil => cases others <;> simp [bucketSamples]
  | cons bucket rest ih =>
      cases others with
      | nil => simp [bucketSamples]
      | cons other more =>
          have labelled (bound : F) := labelName_assign (numbers.toString bound) labelName_le named
          rw [bucketSamples, bucketSamples, List.map_cons, List.map_cons, List.cons.injEq,
            List.cons.injEq]
          constructor
          · rintro ⟨first, later⟩
            obtain ⟨marks, counts⟩ := sample_unique (labelled _) (labelled _) first
            have bounds := MetricLabels.insert_injective (congrArg MetricLabels.kv marks)
            have sums := UInt64.toNat_inj.mp (decimal_injective counts)
            rw [sums] at later
            exact ⟨Prod.ext bounds (add_left_cancel sums), ih.mp later⟩
          · rintro ⟨first, later⟩
            obtain ⟨bounds, counts⟩ := Prod.mk.inj first
            have counts : bucket.2 = other.2 := counts
            have bounds : numbers.toString bucket.1 = numbers.toString other.1 := bounds
            rw [bounds, counts]
            exact ⟨rfl, ih.mpr later⟩

end Buckets

namespace PrometheusText.Family

theorem lines_marked (family : Family) :
    Marked (fun line => ∃ name text, line = .help name text) family.lines := by
  refine ⟨_, _, rfl, ⟨_, _, rfl⟩, fun line member ⟨name, text, same⟩ => ?_⟩
  subst same
  rcases List.mem_cons.mp member with type | sample
  · cases type
  · obtain ⟨_, _, impossible⟩ := List.mem_map.mp sample
    cases impossible

theorem lines_injective : Function.Injective lines := by
  intro family other same
  obtain ⟨help, rest⟩ := List.cons.inj same
  obtain ⟨type, samples⟩ := List.cons.inj rest
  obtain ⟨names, helps⟩ := Line.help.inj help
  have kinds := Kind.text_injective (Line.type.inj type).2
  have readings : Function.Injective fun sample : Bytes × Bytes => Line.sample sample.1 sample.2 :=
    fun first second equal => Prod.ext (Line.sample.inj equal).1 (Line.sample.inj equal).2
  have samples := List.map_injective_iff.mpr readings samples
  cases family
  cases other
  cases names
  cases helps
  cases kinds
  cases samples
  rfl

theorem allLines_injective : Function.Injective allLines := by
  intro families others same
  have lines := List.append_cancel_right same
  rw [List.flatMap_def, List.flatMap_def] at lines
  have marked (families : List Family) : ∀ block ∈ families.map Family.lines,
      Marked (fun line => ∃ name text, line = .help name text) block :=
    List.forall_mem_map.mpr fun family _ => family.lines_marked
  exact List.map_injective_iff.mpr lines_injective
    (marked_flatten_injective (marked families) (marked others) lines)

end PrometheusText.Family

section Told

variable {F : Type}

deriving instance DecidableEq for CounterEntry

/-- What is written of a gauge. -/
structure ToldGauge where
  name : Bytes
  help : Bytes
  labels : MetricLabels
  value : Bytes
  deriving DecidableEq

/-- What is written of a histogram: each bound, as it is printed, has the count of its bucket. -/
structure ToldHistogram where
  name : Bytes
  help : Bytes
  labels : MetricLabels
  buckets : List (Bytes × UInt64)
  sum : Bytes
  count : UInt64
  deriving DecidableEq

/-- What is written of a registry. Counters are written as they are. -/
structure Told where
  counters : List (Bytes × CounterEntry)
  gauges : List ToldGauge
  histograms : List ToldHistogram
  deriving DecidableEq

def GaugeEntry.told (numbers : NumberText F) (name : Bytes) (entry : GaugeEntry F) : ToldGauge where
  name
  help := entry.help
  labels := entry.labels
  value := numbers.stream entry.gauge.value

def HistogramEntry.told [LinearOrder F] (numbers : NumberText F) (name : Bytes)
    (entry : HistogramEntry F) : ToldHistogram where
  name
  help := entry.help
  labels := entry.labels
  buckets := (entry.histogram.buckets.zip entry.histogram.bucketCounts).map
    (Prod.map numbers.toString id)
  sum := numbers.stream entry.histogram.sum
  count := entry.histogram.count

variable {numbers : NumberText F} {name other : Bytes}

theorem CounterEntry.family_eq_iff {entry its : CounterEntry}
    (named : ∀ label ∈ entry.labels.kv, LabelName label.1)
    (otherNamed : ∀ label ∈ its.labels.kv, LabelName label.1) :
    entry.family name = its.family other ↔ (name, entry) = (other, its) := by
  constructor
  · intro same
    obtain ⟨rfl, help, -, samples⟩ := Family.mk.inj same
    obtain ⟨labels, value⟩ := sample_unique named otherNamed (List.cons.inj samples).1
    have value := signedText_injective value
    obtain ⟨_, _, ⟨_⟩⟩ := entry
    obtain ⟨_, _, ⟨_⟩⟩ := its
    cases help
    cases labels
    cases value
    rfl
  · intro same
    cases same
    rfl

theorem GaugeEntry.family_eq_iff {entry its : GaugeEntry F}
    (named : ∀ label ∈ entry.labels.kv, LabelName label.1)
    (otherNamed : ∀ label ∈ its.labels.kv, LabelName label.1) :
    entry.family numbers name = its.family numbers other ↔
      entry.told numbers name = its.told numbers other := by
  constructor
  · intro same
    obtain ⟨rfl, help, -, samples⟩ := Family.mk.inj same
    obtain ⟨labels, value⟩ := sample_unique named otherNamed (List.cons.inj samples).1
    rw [told, told, help, labels, value]
  · intro same
    obtain ⟨rfl, help, labels, value⟩ := ToldGauge.mk.inj same
    simp only [family, GaugeEntry.samples, help, labels, value]

theorem HistogramEntry.family_eq_iff [LinearOrder F] {entry its : HistogramEntry F}
    (named : ∀ label ∈ entry.labels.kv, LabelName label.1)
    (otherNamed : ∀ label ∈ its.labels.kv, LabelName label.1) :
    entry.family numbers name = its.family numbers other ↔
      entry.told numbers name = its.told numbers other := by
  constructor
  · intro same
    obtain ⟨rfl, help, -, samples⟩ := Family.mk.inj same
    obtain ⟨buckets, last⟩ := List.append_inj' samples rfl
    simp only [List.cons.injEq] at last
    obtain ⟨-, sums, counts, -⟩ := last
    obtain ⟨labels, sum⟩ := sample_unique named otherNamed sums
    have count := UInt64.toNat_inj.mp (decimal_injective (sample_unique named otherNamed counts).2)
    rw [← labels] at buckets
    have counted := (bucketSamples_unique named).mp buckets
    rw [told, told, help, labels, counted, sum, count]
  · intro same
    obtain ⟨rfl, help, labels, buckets, sum, count⟩ := ToldHistogram.mk.inj same
    rw [← labels] at otherNamed
    have written := (@bucketSamples_unique F numbers name entry.labels named _ _ 0).mpr buckets
    rw [labels] at written
    simp only [family, HistogramEntry.samples, help, labels, written, sum, count]

end Told

namespace MetricsRegistry

/-- A name and labels that the format allows, and a help text of one line. -/
def Writable (name help : Bytes) (labels : MetricLabels) : Prop :=
  Valid name labels ∧ newline ∉ help

instance (name help : Bytes) (labels : MetricLabels) : Decidable (Writable name help labels) :=
  inferInstanceAs (Decidable (_ ∧ _))

namespace IterationOrder

variable {F : Type} [LinearOrder F] {registry others : MetricsRegistry F} (numbers : NumberText F)

def told (order : IterationOrder registry) : Told where
  counters := order.counters.map fun kv => (metricName kv.1, kv.2)
  gauges := order.gauges.map fun kv => kv.2.told numbers (metricName kv.1)
  histograms := order.histograms.map fun kv => kv.2.told numbers (metricName kv.1)

theorem families_of_kind (order : IterationOrder registry) (kind : Kind) :
    (order.families numbers).filter (·.kind = kind) =
      match kind with
      | .counter => order.counters.map fun kv => kv.2.family (metricName kv.1)
      | .gauge => order.gauges.map fun kv => kv.2.family numbers (metricName kv.1)
      | .histogram => order.histograms.map fun kv => kv.2.family numbers (metricName kv.1) := by
  cases kind <;> simp [families, List.filter_append, List.filter_map, Function.comp_def,
    CounterEntry.family, GaugeEntry.family, HistogramEntry.family]

variable (order : IterationOrder registry) (other : IterationOrder others)

theorem families_eq_iff : order.families numbers = other.families numbers ↔
    (order.counters.map fun kv => kv.2.family (metricName kv.1)) =
      (other.counters.map fun kv => kv.2.family (metricName kv.1)) ∧
    (order.gauges.map fun kv => kv.2.family numbers (metricName kv.1)) =
      (other.gauges.map fun kv => kv.2.family numbers (metricName kv.1)) ∧
    (order.histograms.map fun kv => kv.2.family numbers (metricName kv.1)) =
      (other.histograms.map fun kv => kv.2.family numbers (metricName kv.1)) := by
  constructor
  · intro same
    have kinds (kind : Kind) := congrArg (List.filter (·.kind = kind)) same
    simp only [families_of_kind] at kinds
    exact ⟨kinds .counter, kinds .gauge, kinds .histogram⟩
  · rintro ⟨counters, gauges, histograms⟩
    rw [families, families, counters, gauges, histograms]

theorem told_eq_iff (valid : registry.Keeps fun name _ labels => Valid name labels)
    (otherValid : others.Keeps fun name _ labels => Valid name labels) :
    order.families numbers = other.families numbers ↔ order.told numbers = other.told numbers := by
  have counters := @ListSet.map_eq_map_congr _ _ _ _ (fun kv : Bytes × CounterEntry => (metricName kv.1, kv.2))
    order.counters other.counters fun kv member its listed => CounterEntry.family_eq_iff
      (valid.counters kv (order.counters_perm.mem_iff.mp member)).labels
      (otherValid.counters its (other.counters_perm.mem_iff.mp listed)).labels
  have gauges := ListSet.map_eq_map_congr fun kv member its listed => @GaugeEntry.family_eq_iff F numbers
    (metricName kv.1) (metricName its.1) kv.2 its.2
    (valid.gauges kv (order.gauges_perm.mem_iff.mp member)).labels
    (otherValid.gauges its (other.gauges_perm.mem_iff.mp listed)).labels
  have histograms := ListSet.map_eq_map_congr fun kv member its listed => @HistogramEntry.family_eq_iff F
    numbers (metricName kv.1) (metricName its.1) _ kv.2 its.2
    (valid.histograms kv (order.histograms_perm.mem_iff.mp member)).labels
    (otherValid.histograms its (other.histograms_perm.mem_iff.mp listed)).labels
  rw [families_eq_iff, counters, gauges, histograms, told, told, Told.mk.injEq]

theorem text_eq_iff (writable : registry.Keeps Writable) (otherWritable : others.Keeps Writable) :
    toPrometheusText numbers order = toPrometheusText numbers other ↔
      order.told numbers = other.told numbers := by
  have read {registry : MetricsRegistry F} (writable : registry.Keeps Writable)
      (order : IterationOrder registry) :
      parse (toPrometheusText numbers order) = Family.allLines (order.families numbers) :=
    (order.parse_text_iff numbers (writable.imp fun _ _ _ fit => fit.1)).mpr
      (writable.imp fun _ _ _ fit => fit.2)
  rw [← told_eq_iff numbers order other (writable.imp fun _ _ _ fit => fit.1)
    (otherWritable.imp fun _ _ _ fit => fit.1)]
  constructor
  · intro same
    apply Family.allLines_injective
    rw [← read writable, ← read otherWritable, same]
  · intro same
    rw [toPrometheusText_eq, toPrometheusText_eq, same]

end IterationOrder

end MetricsRegistry

namespace MetricsUse

open MetricsRegistry

variable {F : Type} [LinearOrder F] [Zero F] [Add F]

/-- Two scrapes read the same when they show the same metrics, in the same order, with the same
help, labels and values, and only then. Nothing is lost but digits of floating-point numbers. -/
theorem text_tells_all {calls others : List (Call F)} {use its : MetricsUse F}
    (reached : Transition.run step {} calls = some use)
    (asks : ∀ call ∈ calls, call.Asks Writable)
    (otherReached : Transition.run step {} others = some its)
    (otherAsks : ∀ call ∈ others, call.Asks Writable) (numbers : NumberText F)
    (order : IterationOrder use.registry) (other : IterationOrder its.registry) :
    toPrometheusText numbers order = toPrometheusText numbers other ↔
      order.told numbers = other.told numbers := by
  have keeps {calls : List (Call F)} {use : MetricsUse F}
      (reached : Transition.run step {} calls = some use)
      (asks : ∀ call ∈ calls, call.Asks Writable) : use.registry.Keeps Writable :=
    keeps_run (fun _ _ _ writable => writable.1.name.newline) reached asks
  exact order.text_eq_iff numbers other (keeps reached asks) (keeps otherReached otherAsks)

/-- A counter and a gauge that come to the same values. -/
def oneWay : List (Call Int) :=
  [.gaugeMetric (ascii "g") (ascii "a gauge") { kv := [(ascii "l", ascii "\n")] }, .set 0 4,
    .counterMetric (ascii "m") (ascii "a counter") twoLabels, .inc 0 5]

def otherWay : List (Call Int) :=
  [.counterMetric (ascii "m") (ascii "a counter") twoLabels, .inc 0 2,
    .gaugeMetric (ascii "g") (ascii "a gauge") { kv := [(ascii "l", ascii "\n")] }, .set 0 9,
    .set 0 4, .inc 0 3]

theorem text_tells_all_either_way : ∃ use its,
    Transition.run step {} oneWay = some use ∧ Transition.run step {} otherWay = some its ∧
      toPrometheusText integerText use.registry.allocated =
        toPrometheusText integerText its.registry.allocated := by
  refine ⟨_, _, rfl, rfl, ?_⟩
  refine (@text_tells_all Int _ _ _ oneWay otherWay _ _ rfl ?_ rfl ?_ integerText _ _).mpr ?_
  · decide +kernel
  · decide +kernel
  · decide +kernel

end MetricsUse

end Chmicro
