import Chmicro.ExpositionFraming
import Chmicro.PrometheusGroups

set_option autoImplicit false

namespace Chmicro

open PrometheusText TextLines

namespace MetricsRegistry

variable {F : Type} [LinearOrder F] {registry : MetricsRegistry F}

def histogramNames (registry : MetricsRegistry F) : List Bytes :=
  registry.histograms.nodes.map fun kv => metricName kv.1

/-- The name of each entry of the three maps. -/
def names (registry : MetricsRegistry F) : List Bytes :=
  registry.counters.nodes.map (fun kv => metricName kv.1) ++
    registry.gauges.nodes.map (fun kv => metricName kv.1) ++ registry.histogramNames

/-- No two entries have one name, whatever their labels and their maps, and none is named
like a series of a histogram. -/
structure NamesApart (registry : MetricsRegistry F) : Prop where
  names : registry.names.Nodup
  series : ∀ name ∈ registry.histogramNames, ∀ series ∈ Kind.histogram.series name,
    series ∉ registry.names

instance (registry : MetricsRegistry F) : Decidable registry.NamesApart :=
  decidable_of_iff (registry.names.Nodup ∧ ∀ name ∈ registry.histogramNames,
      ∀ series ∈ Kind.histogram.series name, series ∉ registry.names)
    ⟨fun both => ⟨both.1, both.2⟩, fun apart => ⟨apart.names, apart.series⟩⟩

namespace IterationOrder

variable (numbers : NumberText F) (order : IterationOrder registry)

/-- However the maps are walked, each entry is written once. -/
theorem families_names : ((order.families numbers).map Family.name).Perm registry.names := by
  have each : (order.families numbers).map Family.name =
      order.counters.map (fun kv => metricName kv.1) ++
        order.gauges.map (fun kv => metricName kv.1) ++
        order.histograms.map fun kv => metricName kv.1 := by
    simp only [families, List.map_append, List.map_map]
    rfl
  rw [each]
  exact ((order.counters_perm.map _).append (order.gauges_perm.map _)).append
    (order.histograms_perm.map _)

theorem apart_iff : Family.Apart (order.families numbers) ↔ registry.NamesApart := by
  have names := order.families_names numbers
  have series : (∀ histogram ∈ order.families numbers, histogram.kind = .histogram →
      ∀ family ∈ order.families numbers,
        family.name ∉ Kind.histogram.series histogram.name) ↔
      ∀ name ∈ registry.histogramNames, ∀ series ∈ Kind.histogram.series name,
        series ∉ registry.names := by
    have listed (name : Bytes) :
        (∀ family ∈ order.families numbers, family.name ∉ Kind.histogram.series name) ↔
          ∀ series ∈ Kind.histogram.series name, series ∉ registry.names := by
      have each : (∀ family ∈ order.families numbers,
          family.name ∉ Kind.histogram.series name) ↔
          ∀ named ∈ (order.families numbers).map Family.name,
            named ∉ Kind.histogram.series name := by rw [List.forall_mem_map]
      rw [each]
      simp only [names.mem_iff]
      exact ⟨fun apart series member named => apart series named member,
        fun apart named member series => apart named series member⟩
    simp only [listed]
    rw [forall_families, histogramNames, List.forall_mem_map]
    constructor
    · intro all kv member
      exact all.2.2 kv member rfl
    · intro all
      refine ⟨?_, ?_, ?_⟩
      · intro kv _ kind
        cases kind
      · intro kv _ kind
        cases kind
      · intro kv member _
        exact all kv member
  exact ⟨fun apart => ⟨names.nodup_iff.mp apart.names, series.mp apart.series⟩,
    fun apart => ⟨names.nodup_iff.mpr apart.names, series.mpr apart.series⟩⟩

end IterationOrder

end MetricsRegistry

namespace MetricsUse

open MetricsRegistry

variable {F : Type} [LinearOrder F] [Zero F] [Add F]

/-- Each entry is written with its own help and type, so the text is well formed just when
the entries have names of their own. -/
theorem text_wellFormed_iff {calls : List (Call F)} {use : MetricsUse F}
    (reached : Transition.run step {} calls = some use)
    (valid : ∀ call ∈ calls, call.Asks fun name help labels => Valid name labels ∧ newline ∉ help)
    (numbers : NumberText F) (order : IterationOrder use.registry) :
    WellFormed (parse (toPrometheusText numbers order)) ↔ use.registry.NamesApart := by
  have keeps := keeps_run (fun _ _ _ valid => valid.1.name.newline) reached valid
  have lines : parse (toPrometheusText numbers order) =
      Family.allLines (order.families numbers) := by
    rw [order.parse_text_iff numbers (keeps.imp fun _ _ _ valid => valid.1)]
    exact keeps.imp fun _ _ _ valid => valid.2
  rw [lines, Family.wellFormed_iff, order.apart_iff]

/-- A counter and a histogram that are apart. -/
def twoMetrics : List (Call Int) :=
  [.counterMetric (ascii "requests_total") (ascii "requests") { kv := [(ascii "path", ascii "/")] },
    .histogramMetric (ascii "request_ms") (ascii "latency") [5, 1]
      { kv := [(ascii "path", ascii "/index")] },
    .inc 0 1, .observe 0 3]

theorem two_metrics_wellFormed : ∃ use, Transition.run step {} twoMetrics = some use ∧
    WellFormed (parse (toPrometheusText integerText use.registry.allocated)) := by
  have valid : ∀ call ∈ twoMetrics, call.Asks fun name help labels =>
      Valid name labels ∧ newline ∉ help := by
    decide +kernel
  refine ⟨_, rfl, (@text_wellFormed_iff Int _ _ _ twoMetrics _ rfl valid integerText _).mpr ?_⟩
  decide +kernel

/-- One counter for each status, as the server counts its requests. -/
def twoStatuses : List (Call Int) :=
  [.counterMetric (ascii "requests_total") (ascii "requests")
      { kv := [(ascii "status", ascii "200")] },
    .counterMetric (ascii "requests_total") (ascii "requests")
      { kv := [(ascii "status", ascii "404")] }]

theorem two_statuses_not_wellFormed :
    (∀ call ∈ twoStatuses, call.Asks fun name help labels =>
      Valid name labels ∧ newline ∉ help) ∧
    ∃ use, Transition.run step {} twoStatuses = some use ∧
      ¬ WellFormed (parse (toPrometheusText integerText use.registry.allocated)) := by
  refine ⟨by decide +kernel, _, rfl, fun wellFormed => absurd wellFormed.help ?_⟩
  decide +kernel

end MetricsUse

end Chmicro
