import Mathlib
import Chmicro.ExpositionFraming
import Chmicro.ListSet

set_option autoImplicit false

namespace Chmicro

namespace Histogram

variable {F : Type} [LinearOrder F]

/-- The sum of the counts up to a bound, that bound's own included. -/
def cumulative (histogram : Histogram F) (index : Nat) : UInt64 :=
  (histogram.bucketCounts.take (index + 1)).sum

/-- The search finds the first bound that the value is not above. -/
theorem le_bound_iff (histogram : Histogram F) {v bound : F} {first index : Nat}
    (found : (histogram.buckets.findIdx? fun bound => ¬ bound < v) = some first)
    (here : histogram.buckets[index]? = some bound) : v ≤ bound ↔ first < index + 1 := by
  obtain ⟨firstInside, notBelow, below⟩ := List.findIdx?_eq_some_iff_getElem.mp found
  obtain ⟨inside, same⟩ := List.getElem?_eq_some_iff.mp here
  have reached : v ≤ histogram.buckets[first] := not_lt.mp (of_decide_eq_true notBelow)
  constructor
  · intro small
    by_contra far
    have missed := below index (by omega)
    rw [same] at missed
    exact absurd small (by simpa using missed)
  · intro near
    rw [← same]
    rcases Nat.lt_or_eq_of_le (Nat.le_of_lt_succ near) with before | rfl
    · exact reached.trans (List.pairwise_iff_getElem.mp histogram.sorted _ _ _ _ before)
    · exact reached

theorem cumulative_observe [Add F] (histogram : Histogram F) (v : F) {bound : F} {index : Nat}
    (here : histogram.buckets[index]? = some bound) :
    (histogram.observe v).cumulative index =
      histogram.cumulative index + if v ≤ bound then 1 else 0 := by
  unfold cumulative observe
  dsimp only
  split
  · rename_i first found
    have inside : first < histogram.bucketCounts.length := by
      rw [histogram.sized]
      exact (List.findIdx?_eq_some_iff_getElem.mp found).1
    rw [ListSet.sum_take_modify inside]
    simp only [histogram.le_bound_iff found here]
  · rename_i absent
    have below := List.findIdx?_eq_none_iff.mp absent bound (List.mem_of_getElem? here)
    have above : ¬ v ≤ bound := by simpa using below
    rw [if_neg above, add_zero]

section Runs

variable [Add F]

theorem buckets_foldl (histogram : Histogram F) (observations : List F) :
    (observations.foldl Histogram.observe histogram).buckets = histogram.buckets := by
  induction observations generalizing histogram with
  | nil => rfl
  | cons v rest ih => exact ih (histogram.observe v)

theorem count_foldl (histogram : Histogram F) (observations : List F) :
    (observations.foldl Histogram.observe histogram).count =
      histogram.count + UInt64.ofNat observations.length := by
  induction observations generalizing histogram with
  | nil => exact (add_zero histogram.count).symm
  | cons v rest ih =>
      rw [List.foldl_cons, ih, List.length_cons, UInt64.ofNat_add]
      show histogram.count + 1 + UInt64.ofNat rest.length = _
      rw [add_assoc, add_comm 1]
      rfl

theorem cumulative_foldl (histogram : Histogram F) (observations : List F) {bound : F}
    {index : Nat} (here : histogram.buckets[index]? = some bound) :
    (observations.foldl Histogram.observe histogram).cumulative index =
      histogram.cumulative index + UInt64.ofNat (observations.countP (· ≤ bound)) := by
  induction observations generalizing histogram with
  | nil => exact (add_zero (histogram.cumulative index)).symm
  | cons v rest ih =>
      rw [List.foldl_cons, ih (histogram.observe v) here, cumulative_observe histogram v here,
        List.countP_cons, UInt64.ofNat_add, add_assoc, add_comm (UInt64.ofNat _)]
      by_cases small : v ≤ bound
      · simp [small]
      · simp [small]

variable [Zero F]

/-- What a histogram becomes as it observes the values. -/
def observed (buckets observations : List F) : Histogram F :=
  observations.foldl Histogram.observe (.new buckets)

theorem observed_buckets (buckets observations : List F) :
    (observed buckets observations).buckets = buckets.mergeSort :=
  buckets_foldl (.new buckets) observations

theorem observed_count (buckets observations : List F) :
    (observed buckets observations).count = UInt64.ofNat observations.length := by
  have counted := count_foldl (.new buckets) observations
  rw [show (new buckets).count = 0 from rfl, zero_add] at counted
  exact counted

theorem cumulative_observed (buckets observations : List F) {bound : F} {index : Nat}
    (here : buckets.mergeSort[index]? = some bound) :
    (observed buckets observations).cumulative index =
      UInt64.ofNat (observations.countP (· ≤ bound)) := by
  have none_ : (new buckets).cumulative index = 0 := by
    show ((List.replicate buckets.length 0).take (index + 1)).sum = 0
    rw [List.take_replicate, List.sum_replicate, smul_zero]
  have whole := cumulative_foldl (.new buckets) observations here
  rw [none_, zero_add] at whole
  exact whole

end Runs

end Histogram

section Samples

variable {F : Type} (numbers : NumberText F) (name : Bytes)

/-- The line of a bucket. -/
def bucketLine (labels : MetricLabels) (bound : F) (value : UInt64) : Bytes × Bytes :=
  sample (name ++ ascii "_bucket") (labels.assign (ascii "le") (numbers.toString bound))
    (unsignedText value)

theorem bucketSamples_getElem? (labels : MetricLabels) (start : UInt64) {buckets : List F}
    {counts : List UInt64} (sized : counts.length = buckets.length) (index : Nat) :
    (bucketSamples numbers name labels start (buckets.zip counts))[index]? =
      buckets[index]?.map fun bound =>
        bucketLine numbers name labels bound (start + (counts.take (index + 1)).sum) := by
  induction buckets generalizing start counts index with
  | nil => rfl
  | cons bound rest ih =>
      cases counts with
      | nil => exact absurd sized (by simp)
      | cons count counts =>
          have later := ih (start + count) (by simpa using sized)
          cases index with
          | zero =>
              show some (bucketLine numbers name labels bound (start + count)) = _
              simp
          | succ index =>
              show (bucketSamples numbers name labels (start + count) (rest.zip counts))[index]? = _
              rw [later index, List.getElem?_cons_succ, List.take_succ_cons, List.sum_cons,
                add_assoc]

variable [LinearOrder F] [Zero F] [Add F]

theorem observed_samples (help : Bytes) (labels : MetricLabels) (buckets observations : List F) :
    (HistogramEntry.mk help labels (.observed buckets observations)).samples numbers name =
      (buckets.mergeSort.map fun bound => bucketLine numbers name labels bound
        (UInt64.ofNat (observations.countP (· ≤ bound)))) ++
      [sample (name ++ ascii "_bucket") (labels.assign (ascii "le") (ascii "+Inf"))
          (unsignedText (UInt64.ofNat observations.length)),
        sample (name ++ ascii "_sum") labels
          (numbers.stream (Histogram.observed buckets observations).sum),
        sample (name ++ ascii "_count") labels
          (unsignedText (UInt64.ofNat observations.length))] := by
  have lines : bucketSamples numbers name labels 0
      ((Histogram.observed buckets observations).buckets.zip
        (Histogram.observed buckets observations).bucketCounts) =
      buckets.mergeSort.map fun bound => bucketLine numbers name labels bound
        (UInt64.ofNat (observations.countP (· ≤ bound))) := by
    apply List.ext_getElem?
    intro index
    rw [bucketSamples_getElem? numbers name labels 0
      (Histogram.observed buckets observations).sized, Histogram.observed_buckets,
      List.getElem?_map, zero_add]
    cases here : buckets.mergeSort[index]? with
    | none => rfl
    | some bound =>
        have value := Histogram.cumulative_observed buckets observations here
        rw [Histogram.cumulative] at value
        rw [Option.map_some, Option.map_some, value]
  rw [HistogramEntry.samples, lines, Histogram.observed_count]

/-- The text of a histogram ends with the number of its observations. -/
theorem count_suffix (help : Bytes) (labels : MetricLabels) (buckets observations : List F) :
    (name ++ ascii "_count" ++ (labels.toPrometheusLabelText ++ ascii " " ++
      unsignedText (UInt64.ofNat observations.length)) ++ [newline]) <:+
      metricText name help (ascii "histogram")
        ((HistogramEntry.mk help labels (.observed buckets observations)).samples numbers name) := by
  rw [observed_samples, metricText, List.flatMap_append]
  refine .trans ?_ ((List.suffix_append _ _).trans (List.suffix_append _ _))
  rw [List.flatMap_cons, List.flatMap_cons, List.flatMap_singleton]
  exact (List.suffix_append _ _).trans (List.suffix_append _ _)

end Samples

namespace MetricsRegistry

variable {F : Type} [LinearOrder F]

theorem metricName_key_eq (name : Bytes) (labels : MetricLabels) :
    metricName (key name labels) = metricName name := by
  rw [metricName, key_eq, List.takeWhile_append]
  split
  · rename_i whole
    rw [List.takeWhile_cons_of_neg (by simp), List.append_nil]
    exact (List.takeWhile_prefix _).eq_of_length whole |>.symm
  · rfl

/-- However the maps are walked, the text of each histogram stands in the whole. -/
theorem histogram_infix {registry : MetricsRegistry F} (numbers : NumberText F)
    (order : IterationOrder registry) {key : Bytes} {entry : HistogramEntry F}
    (found : registry.histograms.get? key = some entry) :
    metricText (metricName key) entry.help (ascii "histogram")
      (entry.samples numbers (metricName key)) <:+: toPrometheusText numbers order := by
  obtain ⟨ref, node⟩ := NodeMap.get?_eq_some.mp found
  have walked : (key, entry) ∈ order.histograms :=
    order.histograms_perm.mem_iff.mpr (List.mem_of_getElem? node)
  have written := List.infix_of_mem_flatten (List.mem_map_of_mem walked
    (f := fun kv => metricText (metricName kv.1) kv.2.help (ascii "histogram")
      (kv.2.samples numbers (metricName kv.1))))
  exact written.trans (List.suffix_append _ _).isInfix

/-- The text of a registry that holds one histogram and nothing else. -/
theorem text_single {registry : MetricsRegistry F} (numbers : NumberText F)
    (counters : registry.counters.nodes = []) (gauges : registry.gauges.nodes = [])
    (one : registry.histograms.nodes.length = 1) {key : Bytes} {entry : HistogramEntry F}
    (found : registry.histograms.get? key = some entry) :
    toPrometheusText numbers registry.allocated =
      metricText (metricName key) entry.help (ascii "histogram")
        (entry.samples numbers (metricName key)) := by
  obtain ⟨ref, node⟩ := NodeMap.get?_eq_some.mp found
  obtain ⟨only, nodes⟩ := List.length_eq_one_iff.mp one
  have member := List.mem_of_getElem? node
  rw [nodes, List.mem_singleton] at member
  simp [toPrometheusText, allocated, counters, gauges, nodes, ← member]

/-- The lookup that makes the histogram decides its help, its labels and its bounds. -/
theorem histogramMetric_fresh [Zero F] {registry : MetricsRegistry F} {name : Bytes}
    {labels : MetricLabels} (help : Bytes) (buckets : List F)
    (fresh : registry.histograms.get? (key name labels) = none) :
    (registry.histogramMetric name help buckets labels).2.histograms.nodes[
        (registry.histogramMetric name help buckets labels).1]? =
      some (key name labels, ⟨help, labels, .new buckets⟩) := by
  obtain ⟨value, node⟩ := registry.histograms.tryEmplace_ref (key name labels)
    { help, labels, histogram := .new buckets }
  have held := registry.histograms.get?_tryEmplace_self (key name labels)
    { help, labels, histogram := .new buckets }
  rw [fresh, NodeMap.get?_eq_some.mpr ⟨_, node⟩, Option.getD_none] at held
  rw [Option.some.inj held] at node
  exact node

end MetricsRegistry

namespace MetricsUse

open MetricsRegistry

variable {F : Type} [LinearOrder F] [Zero F] [Add F]

/-- What a call has the histogram of a reference observe. -/
def Call.observed (use : MetricsUse F) (ref : Nat) : Call F → List F
  | .observe lookup v => if (use.histograms[lookup]?).map Lookup.ref = some ref then [v] else []
  | .counterMetric .. | .inc .. | .gaugeMetric .. | .set .. | .histogramMetric .. => []

/-- What a run has the histogram of a reference observe. -/
def observations (ref : Nat) : MetricsUse F → List (Call F) → List F
  | _, [] => []
  | use, call :: calls =>
      call.observed use ref ++
        ((use.step call).map fun next => observations ref next calls).getD []

variable {use after : MetricsUse F} {ref : Nat} {entry : HistogramEntry F} {key_ : Bytes}

theorem histogram_step {call : Call F}
    (node : use.registry.histograms.nodes[ref]? = some (key_, entry))
    (taken : use.step call = some after) :
    after.registry.histograms.nodes[ref]? = some (key_,
      { entry with
        histogram := (call.observed use ref).foldl Histogram.observe entry.histogram }) := by
  cases call with
  | counterMetric name help labels =>
      cases taken
      exact node
  | gaugeMetric name help labels =>
      cases taken
      exact node
  | inc lookup v =>
      obtain ⟨held, -, rfl⟩ := Option.map_eq_some_iff.mp taken
      exact node
  | set lookup v =>
      obtain ⟨held, -, rfl⟩ := Option.map_eq_some_iff.mp taken
      exact node
  | histogramMetric name help buckets labels =>
      cases taken
      exact NodeMap.tryEmplace_kept _ _ _ node
  | observe lookup v =>
      obtain ⟨held, position, rfl⟩ := Option.map_eq_some_iff.mp taken
      rw [observe_histograms, NodeMap.modify_node, node, Call.observed, position]
      by_cases here : held.ref = ref
      · simp [here]
      · simp [here]

theorem histogram_run {calls : List (Call F)}
    (node : use.registry.histograms.nodes[ref]? = some (key_, entry))
    (reached : Transition.run step use calls = some after) :
    after.registry.histograms.nodes[ref]? = some (key_,
      { entry with
        histogram := (observations ref use calls).foldl Histogram.observe entry.histogram }) := by
  induction calls generalizing use entry with
  | nil =>
      cases reached
      exact node
  | cons call calls ih =>
      obtain ⟨next, taken, remaining⟩ := (Transition.run_cons_eq_some step).mp reached
      rw [ih (histogram_step node taken) remaining, observations, taken, List.foldl_append]
      rfl

theorem created_run {name help : Bytes} {labels : MetricLabels} {buckets values : List F}
    {calls : List (Call F)} (fresh : use.registry.histograms.get? (key name labels) = none)
    (reached : Transition.run step use (.histogramMetric name help buckets labels :: calls) =
      some after)
    (seen : observations (use.registry.histogramMetric name help buckets labels).1 use
      (.histogramMetric name help buckets labels :: calls) = values) :
    after.registry.histograms.get? (key name labels) =
      some ⟨help, labels, .observed buckets values⟩ := by
  obtain ⟨made, taken, remaining⟩ := (Transition.run_cons_eq_some step).mp reached
  rw [observations, taken] at seen
  have later : observations (use.registry.histogramMetric name help buckets labels).1 made calls =
    values := seen
  have node : made.registry.histograms.nodes[
      (use.registry.histogramMetric name help buckets labels).1]? =
      some (key name labels, ⟨help, labels, .new buckets⟩) := by
    cases taken
    exact histogramMetric_fresh help buckets fresh
  have ran := histogram_run node remaining
  rw [later] at ran
  exact NodeMap.get?_eq_some.mpr ⟨_, ran⟩

theorem observe_all {position : Nat} {lookup : Lookup}
    (held : use.histograms[position]? = some lookup) (values : List F) :
    ∃ after, Transition.run step use (values.map (.observe position)) = some after ∧
      observations lookup.ref use (values.map (.observe position)) = values ∧
      after.registry.counters = use.registry.counters ∧
      after.registry.gauges = use.registry.gauges ∧
      after.registry.histograms.nodes.length = use.registry.histograms.nodes.length := by
  induction values generalizing use with
  | nil => exact ⟨use, rfl, rfl, rfl, rfl, rfl⟩
  | cons v rest ih =>
      have taken : use.step (.observe position v) =
          some { use with registry := use.registry.observe lookup.ref v } := by
        rw [step, held]
        rfl
      obtain ⟨after, reached, seen, counters, gauges, length⟩ :=
        @ih { use with registry := use.registry.observe lookup.ref v } held
      refine ⟨after, ?_, ?_, counters, gauges, length.trans ?_⟩
      · rw [List.map_cons, Transition.run_cons, taken]
        exact reached
      · rw [List.map_cons, observations, taken, Option.map_some, Option.getD_some, seen,
          Call.observed, held, Option.map_some, if_pos rfl]
        rfl
      · exact List.length_modify ..

end MetricsUse

section Exposition

open MetricsRegistry MetricsUse

variable {F : Type} [LinearOrder F] [Zero F] [Add F] {use after : MetricsUse F}

/-- The counters have 64 bits. -/
theorem cumulative_exposition {name help : Bytes} {labels : MetricLabels} {buckets values : List F}
    {calls : List (Call F)} (fresh : use.registry.histograms.get? (key name labels) = none)
    (reached : Transition.run step use (.histogramMetric name help buckets labels :: calls) =
      some after)
    (seen : observations (use.registry.histogramMetric name help buckets labels).1 use
      (.histogramMetric name help buckets labels :: calls) = values)
    (numbers : NumberText F) (order : IterationOrder after.registry) :
    ∃ printed,
      (after.registry.histograms.get? (key name labels)).map
        (HistogramEntry.samples numbers (metricName name)) = some printed ∧
      metricText (metricName name) help (ascii "histogram") printed <:+:
        toPrometheusText numbers order ∧
      printed = (buckets.mergeSort.map fun bound =>
          sample (metricName name ++ ascii "_bucket")
            (labels.assign (ascii "le") (numbers.toString bound))
            (decimal (values.countP (· ≤ bound) % 2 ^ 64))) ++
        [sample (metricName name ++ ascii "_bucket") (labels.assign (ascii "le") (ascii "+Inf"))
            (decimal (values.length % 2 ^ 64)),
          sample (metricName name ++ ascii "_sum") labels
            (numbers.stream (Histogram.observed buckets values).sum),
          sample (metricName name ++ ascii "_count") labels (decimal (values.length % 2 ^ 64))] ∧
      (values.length < 2 ^ 64 →
        values.length % 2 ^ 64 = values.length ∧
        ∀ bound, values.countP (· ≤ bound) % 2 ^ 64 = values.countP (· ≤ bound) ∧
          values.countP (· ≤ bound) ≤ values.length ∧
          ∀ higher, bound ≤ higher → values.countP (· ≤ bound) ≤ values.countP (· ≤ higher)) := by
  have entry := created_run fresh reached seen
  have written := histogram_infix numbers order entry
  rw [metricName_key_eq] at written
  refine ⟨_, congrArg _ entry, written, ?_, ?_⟩
  · exact observed_samples numbers (metricName name) help labels buckets values
  · intro fewer
    constructor
    · exact Nat.mod_eq_of_lt fewer
    intro bound
    have most : values.countP (· ≤ bound) ≤ values.length := List.countP_le_length
    constructor
    · exact Nat.mod_eq_of_lt (by omega)
    constructor
    · exact most
    · intro higher order
      apply List.countP_mono_left
      intro v _ small
      simp only [decide_eq_true_eq] at small ⊢
      exact small.trans order

/-- Bounds out of order, one of them twice, and observations on a bound and above all. -/
def threeObserved : List (Call Int) :=
  [.histogramMetric (ascii "ms") (ascii "times") [5, 1, 5] .empty, .observe 0 5,
    .counterMetric (ascii "hits") [] .empty, .inc 0 1, .observe 0 9, .observe 0 3]

theorem cumulative_exposition_three : ∃ after, Transition.run step {} threeObserved = some after ∧
    metricText (ascii "ms") (ascii "times") (ascii "histogram")
      [(ascii "ms_bucket", ascii "\x7ble=\"1.000000\"\x7d 0"),
        (ascii "ms_bucket", ascii "\x7ble=\"5.000000\"\x7d 2"),
        (ascii "ms_bucket", ascii "\x7ble=\"5.000000\"\x7d 2"),
        (ascii "ms_bucket", ascii "\x7ble=\"+Inf\"\x7d 3"),
        (ascii "ms_sum", ascii " 17"), (ascii "ms_count", ascii " 3")] <:+:
      toPrometheusText integerText after.registry.allocated := by
  obtain ⟨after, reached⟩ : ∃ after, Transition.run step {} threeObserved = some after := ⟨_, rfl⟩
  obtain ⟨printed, -, written, lines, -⟩ :=
    @cumulative_exposition Int _ _ _ {} after _ _ _ _ [5, 9, 3] _ rfl reached rfl integerText
      after.registry.allocated
  rw [lines] at written
  refine ⟨after, reached, ?_⟩
  have sorted : ([5, 1, 5] : List Int).mergeSort = [1, 5, 5] := by
    simp [List.mergeSort, List.MergeSort.Internal.splitInTwo]
  rw [sorted] at written
  convert written using 1
  decide +kernel

/-- As many observations as the counters have values are counted as none. -/
theorem cumulative_exposition_wraps :
    ¬ ∀ (values : List Int) (after : MetricsUse Int),
      Transition.run step {} (.histogramMetric (ascii "h") [] [] {} :: values.map (.observe 0)) =
        some after →
      (ascii "h_count " ++ decimal values.length ++ [newline]) <:+
        toPrometheusText integerText after.registry.allocated := by
  intro exact_
  obtain ⟨values, length⟩ : ∃ values : List Int, values.length = 2 ^ 64 :=
    ⟨List.replicate (2 ^ 64) 0, List.length_replicate⟩
  obtain ⟨made, taken⟩ : ∃ made, step ({} : MetricsUse Int)
      (.histogramMetric (ascii "h") [] [] {}) = some made := ⟨_, rfl⟩
  obtain ⟨first, bare, flat, single⟩ : made.histograms[0]? = some ⟨ascii "h", {}, 0⟩ ∧
      made.registry.counters.nodes = [] ∧ made.registry.gauges.nodes = [] ∧
      made.registry.histograms.nodes.length = 1 := by
    cases taken
    exact ⟨rfl, rfl, rfl, rfl⟩
  obtain ⟨after, remaining, seen, counters, gauges, one⟩ := observe_all first values
  have reached : Transition.run step {} (.histogramMetric (ascii "h") [] [] {} ::
      values.map (.observe 0)) = some after := by
    rw [Transition.run_cons, taken]
    exact remaining
  have found := @created_run Int _ _ _ {} after (ascii "h") [] {} [] values _ rfl reached (by
    rw [observations, taken]
    exact seen)
  have printed := exact_ values after reached
  have text : toPrometheusText integerText after.registry.allocated =
      metricText (ascii "h") [] (ascii "histogram")
        ((HistogramEntry.mk [] {} (.observed [] values)).samples integerText (ascii "h")) := by
    have whole := text_single integerText (counters ▸ bare) (gauges ▸ flat) (one.trans single) found
    rw [metricName_key (by decide)] at whole
    exact whole
  have line : ascii "h" ++ ascii "_count" ++ (({} : MetricLabels).toPrometheusLabelText ++
      ascii " " ++ unsignedText (UInt64.ofNat (2 ^ 64))) ++ [newline] = ascii "h_count 0\n" := by
    decide +kernel
  have last : ascii "h_count 0\n" <:+ toPrometheusText integerText after.registry.allocated := by
    have count := count_suffix integerText (ascii "h") [] {} [] values
    rw [← text, length, line] at count
    exact count
  rw [length] at printed
  have both := List.suffix_of_suffix_length_le last printed (by decide +kernel)
  exact absurd both (by decide +kernel)

end Exposition

end Chmicro
