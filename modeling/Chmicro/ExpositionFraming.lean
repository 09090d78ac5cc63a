import Chmicro.ExpositionSamples
import Chmicro.MetricsSeries

set_option autoImplicit false

namespace Chmicro

open PrometheusText TextLines

namespace MetricsRegistry

variable {F : Type} [LinearOrder F]

/-- What holds of the name, the help and the labels of each entry. -/
structure Keeps (registry : MetricsRegistry F) (fits : Bytes → Bytes → MetricLabels → Prop) :
    Prop where
  counters : ∀ kv ∈ registry.counters.nodes, fits (metricName kv.1) kv.2.help kv.2.labels
  gauges : ∀ kv ∈ registry.gauges.nodes, fits (metricName kv.1) kv.2.help kv.2.labels
  histograms : ∀ kv ∈ registry.histograms.nodes, fits (metricName kv.1) kv.2.help kv.2.labels

theorem Keeps.imp {registry : MetricsRegistry F} {fits others : Bytes → Bytes → MetricLabels → Prop}
    (keeps : registry.Keeps fits) (weaker : ∀ name help labels, fits name help labels →
      others name help labels) : registry.Keeps others :=
  ⟨fun kv member => weaker _ _ _ (keeps.counters kv member),
    fun kv member => weaker _ _ _ (keeps.gauges kv member),
    fun kv member => weaker _ _ _ (keeps.histograms kv member)⟩

theorem metricName_key {name : Bytes} (single : newline ∉ name) (labels : MetricLabels) :
    metricName (key name labels) = name := by
  have inside : ∀ byte ∈ name, decide (byte ≠ newline) = true := by
    intro byte member
    exact decide_eq_true fun same => single (same ▸ member)
  rw [metricName, key_eq, List.takeWhile_append_of_pos inside, List.takeWhile_cons_of_neg (by simp),
    List.append_nil]

end MetricsRegistry

namespace MetricsUse

open MetricsRegistry

variable {F : Type}

/-- What holds of the name, the help and the labels that a lookup is made with. -/
def Call.Asks (fits : Bytes → Bytes → MetricLabels → Prop) : Call F → Prop
  | .counterMetric name help labels | .gaugeMetric name help labels
  | .histogramMetric name help _ labels => fits name help labels
  | .inc .. | .set .. | .observe .. => True

instance (fits : Bytes → Bytes → MetricLabels → Prop)
    [∀ name help labels, Decidable (fits name help labels)] :
    DecidablePred (Call.Asks fits : Call F → Prop)
  | .counterMetric name help labels | .gaugeMetric name help labels
  | .histogramMetric name help _ labels => inferInstanceAs (Decidable (fits name help labels))
  | .inc .. | .set .. | .observe .. => isTrue trivial

variable [LinearOrder F] [Zero F] [Add F] {fits : Bytes → Bytes → MetricLabels → Prop}

theorem keeps_step (named : ∀ name help labels, fits name help labels → newline ∉ name)
    {use after : MetricsUse F} {call : Call F} (keeps : use.registry.Keeps fits)
    (asks : call.Asks fits) (taken : use.step call = some after) : after.registry.Keeps fits := by
  have new {name help : Bytes} {labels : MetricLabels} (fit : fits name help labels) :
      fits (metricName (key name labels)) help labels := by
    rw [metricName_key (named name help labels fit)]
    exact fit
  cases call with
  | counterMetric name help labels =>
      cases taken
      exact ⟨NodeMap.forall_tryEmplace _ _ _ keeps.counters (new asks), keeps.gauges,
        keeps.histograms⟩
  | gaugeMetric name help labels =>
      cases taken
      exact ⟨keeps.counters, NodeMap.forall_tryEmplace _ _ _ keeps.gauges (new asks),
        keeps.histograms⟩
  | histogramMetric name help buckets labels =>
      cases taken
      exact ⟨keeps.counters, keeps.gauges,
        NodeMap.forall_tryEmplace _ _ _ keeps.histograms (new asks)⟩
  | inc lookup v =>
      obtain ⟨held, -, rfl⟩ := Option.map_eq_some_iff.mp taken
      exact ⟨NodeMap.forall_modify keeps.counters _ fun _ _ before => before, keeps.gauges,
        keeps.histograms⟩
  | set lookup v =>
      obtain ⟨held, -, rfl⟩ := Option.map_eq_some_iff.mp taken
      exact ⟨keeps.counters, NodeMap.forall_modify keeps.gauges _ fun _ _ before => before,
        keeps.histograms⟩
  | observe lookup v =>
      obtain ⟨held, -, rfl⟩ := Option.map_eq_some_iff.mp taken
      exact ⟨keeps.counters, keeps.gauges,
        NodeMap.forall_modify keeps.histograms _ fun _ _ before => before⟩

theorem keeps_run (named : ∀ name help labels, fits name help labels → newline ∉ name)
    {calls : List (Call F)} {use : MetricsUse F} (reached : Transition.run step {} calls = some use)
    (asks : ∀ call ∈ calls, call.Asks fits) : use.registry.Keeps fits := by
  refine Transition.invariant step (fun _ call => call.Asks fits)
    (fun use => use.registry.Keeps fits)
    (fun _ _ _ keeps asked taken => keeps_step named keeps asked taken) ?_
    (.of_mem step asks _) reached
  exact ⟨fun _ impossible => (by cases impossible), fun _ impossible => (by cases impossible),
    fun _ impossible => (by cases impossible)⟩

end MetricsUse

namespace MetricsRegistry

variable {F : Type} [LinearOrder F] {registry : MetricsRegistry F}

/-- A metric and its labels have names that the format allows. -/
structure Valid (name : Bytes) (labels : MetricLabels) : Prop where
  name : MetricName name
  labels : ∀ label ∈ labels.kv, LabelName label.1

instance (name : Bytes) (labels : MetricLabels) : Decidable (Valid name labels) :=
  decidable_of_iff (MetricName name ∧ ∀ label ∈ labels.kv, LabelName label.1)
    ⟨fun both => ⟨both.1, both.2⟩, fun valid => ⟨valid.name, valid.labels⟩⟩

namespace IterationOrder

variable (numbers : NumberText F) (order : IterationOrder registry)

def families : List Family :=
  order.counters.map (fun kv => kv.2.family (metricName kv.1)) ++
    order.gauges.map (fun kv => kv.2.family numbers (metricName kv.1)) ++
    order.histograms.map fun kv => kv.2.family numbers (metricName kv.1)

theorem metricText_eq (family : Family) :
    metricText family.name family.help family.kind.text family.samples =
      ended newline family.written := by
  simp [metricText, Family.written, ended, helpStart, typeStart, List.flatMap_map,
    show ascii " " = [space] from rfl]

theorem toPrometheusText_eq : toPrometheusText numbers order =
    ended newline ((order.families numbers).flatMap Family.written) := by
  have text : ended newline ((order.families numbers).flatMap Family.written) =
      (order.families numbers).flatMap fun family =>
        metricText family.name family.help family.kind.text family.samples := by
    simp only [metricText_eq]
    exact List.flatMap_assoc
  rw [text, families, List.flatMap_append, List.flatMap_append, List.flatMap_map, List.flatMap_map,
    List.flatMap_map]
  rfl

theorem forall_families {holds : Family → Prop} :
    (∀ family ∈ order.families numbers, holds family) ↔
      (∀ kv ∈ registry.counters.nodes, holds (kv.2.family (metricName kv.1))) ∧
      (∀ kv ∈ registry.gauges.nodes, holds (kv.2.family numbers (metricName kv.1))) ∧
      ∀ kv ∈ registry.histograms.nodes, holds (kv.2.family numbers (metricName kv.1)) := by
  simp only [families, List.forall_mem_append, List.forall_mem_map, order.counters_perm.mem_iff,
    order.gauges_perm.mem_iff, order.histograms_perm.mem_iff, and_assoc]

theorem readable (valid : registry.Keeps fun name _ labels => Valid name labels) :
    ∀ family ∈ order.families numbers, family.Readable := by
  rw [forall_families]
  refine ⟨fun kv member => ?_, fun kv member => ?_, fun kv member => ?_⟩
  · have names := valid.counters kv member
    refine ⟨names.name, List.forall_mem_singleton.mpr ?_⟩
    exact legible_sample _ names.labels (newline_not_mem_signedText _)
  · have names := valid.gauges kv member
    refine ⟨names.name, List.forall_mem_singleton.mpr ?_⟩
    exact legible_sample _ names.labels (numbers.stream_newline _)
  · have names := valid.histograms kv member
    refine ⟨names.name, List.forall_mem_append.mpr ⟨bucketSamples_legible names.labels, ?_⟩⟩
    have last := labelName_assign (ascii "+Inf") labelName_le names.labels
    intro line listed
    simp only [List.mem_cons, List.not_mem_nil, or_false] at listed
    rcases listed with rfl | rfl | rfl
    · exact legible_sample _ last (newline_not_mem_decimal _)
    · exact legible_sample _ names.labels (numbers.stream_newline _)
    · exact legible_sample _ names.labels (newline_not_mem_decimal _)

/-- Each entry has one line of help, which ends in its help text, one line of type and its
samples. The text has no other lines. -/
structure Framed : Prop where
  lines : parse (toPrometheusText numbers order) = Family.allLines (order.families numbers)
  counters : ∀ kv ∈ order.counters, (kv.2.family (metricName kv.1)).samples.length = 1
  gauges : ∀ kv ∈ order.gauges, (kv.2.family numbers (metricName kv.1)).samples.length = 1
  histograms : ∀ kv ∈ order.histograms, (kv.2.family numbers (metricName kv.1)).samples.length =
    kv.2.histogram.buckets.length + 3

theorem framed_iff_parse : order.Framed numbers ↔
    parse (toPrometheusText numbers order) = Family.allLines (order.families numbers) :=
  ⟨Framed.lines, fun lines => ⟨lines, fun _ _ => rfl, fun _ _ => rfl,
    fun kv _ => kv.2.samples_length⟩⟩

theorem parse_text_iff (valid : registry.Keeps fun name _ labels => Valid name labels) :
    parse (toPrometheusText numbers order) = Family.allLines (order.families numbers) ↔
      registry.Keeps fun _ help _ => newline ∉ help := by
  rw [toPrometheusText_eq, Family.parse_written_iff (order.readable numbers valid), forall_families]
  exact ⟨fun plain => ⟨plain.1, plain.2.1, plain.2.2⟩,
    fun plain => ⟨plain.counters, plain.gauges, plain.histograms⟩⟩

end IterationOrder

end MetricsRegistry

namespace MetricsUse

open MetricsRegistry

variable {F : Type} [LinearOrder F] [Zero F] [Add F]

/-- No label value breaks a line. The help texts are written as they are, so the lines are
the entries' own just when no entry has a newline in its help. -/
theorem text_framed_iff {calls : List (Call F)} {use : MetricsUse F}
    (reached : Transition.run step {} calls = some use)
    (valid : ∀ call ∈ calls, call.Asks fun name _ labels => Valid name labels)
    (numbers : NumberText F) (order : IterationOrder use.registry) :
    order.Framed numbers ↔ use.registry.Keeps fun _ help _ => newline ∉ help := by
  have keeps := keeps_run (fun _ _ _ valid => valid.name.newline) reached valid
  rw [order.framed_iff_parse, order.parse_text_iff numbers keeps]

/-- Integers as they are printed while six digits are enough. -/
def integerText : NumberText Int where
  toString v := signedText (.ofInt v) ++ ascii ".000000"
  stream v := signedText (.ofInt v)
  toString_newline v := by
    rw [List.mem_append, not_or]
    exact ⟨newline_not_mem_signedText _, by decide⟩
  stream_newline _ := newline_not_mem_signedText _

def brokenValue : List (Call Int) :=
  [.counterMetric (ascii "m") (ascii "a counter") { kv := [(ascii "l", ascii "1\n# HELP m")] },
    .inc 0 5,
    .histogramMetric (ascii "h") (ascii "times") [2, 1] { kv := [(ascii "le", ascii "\"")] },
    .observe 0 2]

theorem broken_value_framed : ∃ use, Transition.run step {} brokenValue = some use ∧
    use.registry.allocated.Framed integerText := by
  have valid : ∀ call ∈ brokenValue, call.Asks fun name _ labels => Valid name labels := by
    decide +kernel
  refine ⟨_, rfl, (@text_framed_iff Int _ _ _ brokenValue _ rfl valid integerText _).mpr ?_⟩
  exact ⟨by decide, by decide, by decide⟩

/-- A help text of two lines, the second of which reads as a sample. -/
def brokenHelp : List (Call Int) :=
  [.counterMetric (ascii "m") (ascii "one\nm 7") { kv := [(ascii "l", ascii "2")] }]

theorem broken_help_not_framed :
    (∀ call ∈ brokenHelp, call.Asks fun name _ labels => Valid name labels) ∧
    ∃ use, Transition.run step {} brokenHelp = some use ∧
      ¬ use.registry.allocated.Framed integerText := by
  refine ⟨by decide +kernel, _, rfl, fun framed => ?_⟩
  have count := congrArg List.length framed.lines
  exact absurd count (by decide)

end MetricsUse

end Chmicro
