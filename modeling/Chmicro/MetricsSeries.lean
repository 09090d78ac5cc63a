import Chmicro.MetricsKey
import Chmicro.Transition

set_option autoImplicit false

namespace Chmicro

/-- A lookup that was made, and the reference it returned. -/
structure Lookup where
  name : Bytes
  labels : MetricLabels
  ref : Nat
  deriving DecidableEq

namespace Lookup

def key (lookup : Lookup) : Bytes := MetricsRegistry.key lookup.name lookup.labels

def Same (first second : Lookup) : Prop :=
  first.name = second.name ∧ first.labels = second.labels

instance (first second : Lookup) : Decidable (Same first second) := by
  unfold Same
  infer_instance

/-- Two of the lookups return the same metric just when they ask for the same one. -/
def Distinct (lookups : List Lookup) : Prop :=
  ∀ first ∈ lookups, ∀ second ∈ lookups, (first.ref = second.ref ↔ Same first second)

end Lookup

/-- A registry with the references its callers hold and the increments they have made. -/
structure MetricsUse (F : Type) [LinearOrder F] where
  registry : MetricsRegistry F := {}
  counters : List Lookup := []
  gauges : List Lookup := []
  histograms : List Lookup := []
  increments : List (Lookup × Int64) := []

namespace MetricsUse

variable {F : Type} [LinearOrder F]

/-- A call changes the metric that an earlier lookup, given by its position, has returned. -/
inductive Call (F : Type) where
  | counterMetric (name help : Bytes) (labels : MetricLabels)
  | inc (lookup : Nat) (v : Int64)
  | gaugeMetric (name help : Bytes) (labels : MetricLabels)
  | set (lookup : Nat) (v : F)
  | histogramMetric (name help : Bytes) (buckets : List F) (labels : MetricLabels)
  | observe (lookup : Nat) (v : F)

def step [Zero F] [Add F] (use : MetricsUse F) : Call F → Option (MetricsUse F)
  | .counterMetric name help labels =>
      let (ref, registry) := use.registry.counterMetric name help labels
      some { use with registry, counters := use.counters ++ [⟨name, labels, ref⟩] }
  | .inc lookup v =>
      (use.counters[lookup]?).map fun found =>
        { use with
          registry := use.registry.inc found.ref v
          increments := use.increments ++ [(found, v)] }
  | .gaugeMetric name help labels =>
      let (ref, registry) := use.registry.gaugeMetric name help labels
      some { use with registry, gauges := use.gauges ++ [⟨name, labels, ref⟩] }
  | .set lookup v =>
      (use.gauges[lookup]?).map fun found =>
        { use with registry := use.registry.set found.ref v }
  | .histogramMetric name help buckets labels =>
      let (ref, registry) := use.registry.histogramMetric name help buckets labels
      some { use with registry, histograms := use.histograms ++ [⟨name, labels, ref⟩] }
  | .observe lookup v =>
      (use.histograms[lookup]?).map fun found =>
        { use with registry := use.registry.observe found.ref v }

/-- The metric a call looks up. -/
def Call.series : Call F → Option (Bytes × MetricLabels)
  | .counterMetric name _ labels | .gaugeMetric name _ labels
  | .histogramMetric name _ _ labels => some (name, labels)
  | .inc .. | .set .. | .observe .. => none

def Call.Legal (call : Call F) : Prop :=
  ∀ series ∈ call.series, MetricsRegistry.Legal series.1 series.2

instance (call : Call F) : Decidable call.Legal := by
  unfold Call.Legal
  infer_instance

def Call.Framed (call : Call F) : Prop :=
  ∀ series ∈ call.series, MetricsRegistry.Framed series.2

/-- The sum of the increments that were made through some of the lookups. -/
def total (increments : List (Lookup × Int64)) (through : Lookup → Prop) [DecidablePred through] :
    Int64 :=
  ((increments.filter fun increment => through increment.1).map Prod.snd).sum

/-- Each counter holds the increments made through its own name and labels, and lookups of
each kind return one metric just when name and labels agree. -/
structure Separated (use : MetricsUse F) : Prop where
  counts : ∀ lookup ∈ use.counters, ∃ text entry,
    use.registry.counters.nodes[lookup.ref]? = some (text, entry) ∧
      entry.counter.value = total use.increments (Lookup.Same lookup)
  counters : Lookup.Distinct use.counters
  gauges : Lookup.Distinct use.gauges
  histograms : Lookup.Distinct use.histograms

/-- Each lookup refers to the node of its key. -/
structure Linked {α : Type} (map : NodeMap Bytes α) (lookups : List Lookup) : Prop where
  nodes : ∀ lookup ∈ lookups, ∃ entry, map.nodes[lookup.ref]? = some (lookup.key, entry)
  legal : ∀ lookup ∈ lookups, MetricsRegistry.Legal lookup.name lookup.labels
  framed : ∀ lookup ∈ lookups, MetricsRegistry.Framed lookup.labels

namespace Linked

variable {α : Type} {map : NodeMap Bytes α} {lookups : List Lookup}

theorem empty : Linked (NodeMap.empty : NodeMap Bytes α) [] :=
  ⟨fun _ impossible => (by cases impossible), fun _ impossible => (by cases impossible),
    fun _ impossible => (by cases impossible)⟩

theorem tryEmplace (linked : Linked map lookups) {name : Bytes} {labels : MetricLabels}
    (legal : MetricsRegistry.Legal name labels) (framed : MetricsRegistry.Framed labels)
    (fresh : α) :
    Linked (map.tryEmplace (MetricsRegistry.key name labels) fresh).2
      (lookups ++ [⟨name, labels, (map.tryEmplace (MetricsRegistry.key name labels) fresh).1⟩]) := by
  refine ⟨fun lookup member => ?_, fun lookup member => ?_, fun lookup member => ?_⟩ <;>
    rcases List.mem_append.mp member with before | new
  · obtain ⟨entry, found⟩ := linked.nodes lookup before
    exact ⟨entry, map.tryEmplace_kept _ fresh found⟩
  · rw [List.mem_singleton.mp new]
    exact map.tryEmplace_ref _ fresh
  · exact linked.legal lookup before
  · rw [List.mem_singleton.mp new]
    exact legal
  · exact linked.framed lookup before
  · rw [List.mem_singleton.mp new]
    exact framed

theorem modify (linked : Linked map lookups) (ref : Nat) (change : α → α) :
    Linked (map.modify ref change) lookups := by
  refine ⟨fun lookup member => ?_, linked.legal, linked.framed⟩
  obtain ⟨entry, found⟩ := linked.nodes lookup member
  exact ⟨_, by rw [map.modify_node, found, Option.map_some]⟩

theorem key_eq_iff (linked : Linked map lookups) {first second : Lookup}
    (member : first ∈ lookups) (listed : second ∈ lookups) :
    first.key = second.key ↔ first.Same second := by
  refine ⟨fun same => MetricsRegistry.key_injective (linked.legal first member)
    (linked.legal second listed) (linked.framed first member) (linked.framed second listed) same,
    fun same => ?_⟩
  rw [Lookup.key, same.1, same.2, Lookup.key]

theorem distinct (linked : Linked map lookups) : Lookup.Distinct lookups := by
  intro first member second listed
  rw [← linked.key_eq_iff member listed]
  obtain ⟨entry, found⟩ := linked.nodes first member
  obtain ⟨other, standing⟩ := linked.nodes second listed
  refine ⟨fun same => ?_, fun same => ?_⟩
  · rw [same, standing] at found
    exact (congrArg Prod.fst (Option.some.inj found)).symm
  · rw [same] at found
    exact map.ref_unique found standing

end Linked

/-- What holds of a registry and its callers when every lookup is legal and framed. A counter
holds the increments made through its key. -/
structure Sound (use : MetricsUse F) : Prop where
  counters : Linked use.registry.counters use.counters
  gauges : Linked use.registry.gauges use.gauges
  histograms : Linked use.registry.histograms use.histograms
  made : ∀ increment ∈ use.increments, increment.1 ∈ use.counters
  counted : ∀ (ref : Nat) text entry, use.registry.counters.nodes[ref]? = some (text, entry) →
    entry.counter.value = total use.increments fun lookup => lookup.key = text

theorem sound_empty : Sound ({} : MetricsUse F) :=
  ⟨.empty, .empty, .empty, fun _ impossible => (by cases impossible),
    fun _ _ _ impossible => (by simp [NodeMap.empty] at impossible)⟩

theorem total_concat (increments : List (Lookup × Int64)) (increment : Lookup × Int64)
    (through : Lookup → Prop) [DecidablePred through] :
    total (increments ++ [increment]) through =
      total increments through + if through increment.1 then increment.2 else 0 := by
  unfold total
  rw [List.filter_append, List.map_append, List.sum_append]
  split <;> simp_all

theorem total_eq_zero {increments : List (Lookup × Int64)} {through : Lookup → Prop}
    [DecidablePred through] (none_ : ∀ increment ∈ increments, ¬ through increment.1) :
    total increments through = 0 := by
  unfold total
  rw [List.filter_eq_nil_iff.mpr (by simpa using none_)]
  rfl

theorem total_congr {increments : List (Lookup × Int64)} {through other : Lookup → Prop}
    [DecidablePred through] [DecidablePred other]
    (agree : ∀ increment ∈ increments, (through increment.1 ↔ other increment.1)) :
    total increments through = total increments other := by
  unfold total
  rw [List.filter_congr fun increment member => decide_eq_decide.mpr (agree increment member)]

theorem Sound.separated {use : MetricsUse F} (sound : Sound use) : Separated use := by
  refine ⟨fun lookup member => ?_, sound.counters.distinct, sound.gauges.distinct,
    sound.histograms.distinct⟩
  obtain ⟨entry, found⟩ := sound.counters.nodes lookup member
  refine ⟨_, entry, found, ?_⟩
  rw [sound.counted _ _ _ found]
  refine total_congr fun increment listed => ?_
  rw [eq_comm]
  exact sound.counters.key_eq_iff member (sound.made increment listed)

variable [Zero F] [Add F]

theorem Sound.counterMetric {use after : MetricsUse F} {name help : Bytes} {labels : MetricLabels}
    (sound : Sound use) (legal : MetricsRegistry.Legal name labels)
    (framed : MetricsRegistry.Framed labels)
    (taken : use.step (.counterMetric name help labels) = some after) : Sound after := by
  cases taken
  refine ⟨sound.counters.tryEmplace legal framed _, sound.gauges, sound.histograms,
    fun increment member => List.mem_append_left _ (sound.made increment member),
    fun ref text entry found => ?_⟩
  rcases NodeMap.tryEmplace_new _ _ _ found with before | ⟨new, absent⟩
  · exact sound.counted ref text entry before
  · -- No increment was made through a key that had no node.
    cases new
    refine (total_eq_zero fun increment member same => absent ?_).symm
    obtain ⟨entry, standing⟩ := sound.counters.nodes _ (sound.made increment member)
    rw [same] at standing
    exact List.mem_map.mpr ⟨_, List.mem_of_getElem? standing, rfl⟩

theorem Sound.inc {use after : MetricsUse F} {lookup : Nat} {v : Int64} (sound : Sound use)
    (taken : use.step (.inc lookup v) = some after) : Sound after := by
  obtain ⟨held, position, rfl⟩ := Option.map_eq_some_iff.mp taken
  have member := List.mem_of_getElem? position
  refine ⟨?_, sound.gauges, sound.histograms, fun increment new => ?_,
    fun ref text entry found => ?_⟩
  · rw [MetricsRegistry.inc_counters]
    exact sound.counters.modify _ _
  · rcases List.mem_append.mp new with before | last
    · exact sound.made increment before
    · rw [List.mem_singleton.mp last]
      exact member
  · obtain ⟨target, standing⟩ := sound.counters.nodes held member
    simp only [MetricsRegistry.inc_counters, NodeMap.modify_node] at found
    obtain ⟨⟨named, old⟩, before, same⟩ := Option.map_eq_some_iff.mp found
    obtain ⟨rfl, rfl⟩ := Prod.mk.inj same
    have counted := sound.counted ref named old before
    rw [total_concat]
    split
    · rename_i here
      subst here
      obtain ⟨rfl, rfl⟩ := Prod.mk.inj (Option.some.inj (before.symm.trans standing))
      simp only [Counter.inc, counted, ↓reduceIte]
    · -- A node of the same key would be the one the reference leads to.
      rename_i elsewhere
      have different : held.key ≠ named := by
        rintro rfl
        exact elsewhere (use.registry.counters.ref_unique standing before)
      simp only [counted, different, ↓reduceIte, Int64.add_zero]

theorem Sound.step {use after : MetricsUse F} {call : Call F} (sound : Sound use)
    (legal : call.Legal) (framed : call.Framed) (taken : use.step call = some after) :
    Sound after := by
  cases call with
  | counterMetric name help labels =>
      exact sound.counterMetric (legal _ rfl) (framed _ rfl) taken
  | inc lookup v => exact sound.inc taken
  | gaugeMetric name help labels =>
      cases taken
      exact ⟨sound.counters, sound.gauges.tryEmplace (legal _ rfl) (framed _ rfl) _,
        sound.histograms, sound.made, sound.counted⟩
  | set lookup v =>
      obtain ⟨held, -, rfl⟩ := Option.map_eq_some_iff.mp taken
      refine ⟨sound.counters, ?_, sound.histograms, sound.made, sound.counted⟩
      rw [MetricsRegistry.set_gauges]
      exact sound.gauges.modify _ _
  | histogramMetric name help buckets labels =>
      cases taken
      exact ⟨sound.counters, sound.gauges,
        sound.histograms.tryEmplace (legal _ rfl) (framed _ rfl) _, sound.made, sound.counted⟩
  | observe lookup v =>
      obtain ⟨held, -, rfl⟩ := Option.map_eq_some_iff.mp taken
      refine ⟨sound.counters, sound.gauges, ?_, sound.made, sound.counted⟩
      rw [MetricsRegistry.observe_histograms]
      exact sound.histograms.modify _ _

/-- Two lookups that share a key return one counter, whatever they ask for. -/
theorem run_shared_key (name : Bytes) {labels others : MetricLabels}
    (same : MetricsRegistry.key name others = MetricsRegistry.key name labels) :
    ∃ (use : MetricsUse F) (ref : Nat), Transition.run step {}
        [.counterMetric name [] others, .counterMetric name [] labels] = some use ∧
      use.counters = [⟨name, others, ref⟩, ⟨name, labels, ref⟩] := by
  let first := ({} : MetricsRegistry F).counterMetric name [] others
  let second := first.2.counterMetric name [] labels
  have again : second.1 = first.1 := by
    have refs := NodeMap.tryEmplace_again .empty (MetricsRegistry.key name others)
      ({ help := [], labels := others } : CounterEntry) { help := [], labels }
    simpa only [first, second, MetricsRegistry.counterMetric, ← same] using refs
  refine ⟨{ registry := second.2, counters := [⟨name, others, first.1⟩, ⟨name, labels, second.1⟩] },
    first.1, rfl, ?_⟩
  rw [again]

/-- A registry whose lookups are framed keeps its metrics apart. Labels that are not framed
are confused with others of the same metric. -/
theorem metrics_separated :
    (∀ (calls : List (Call F)) (use : MetricsUse F),
      Transition.run step {} calls = some use → (∀ call ∈ calls, call.Legal) →
      (∀ call ∈ calls, call.Framed) → Separated use) ∧
    ∀ (name : Bytes) (labels : MetricLabels), MetricsRegistry.Legal name labels →
      ¬ MetricsRegistry.Framed labels → ∃ others, MetricsRegistry.Legal name others ∧
        ∃ use : MetricsUse F, Transition.run step {}
            [.counterMetric name [] others, .counterMetric name [] labels] = some use ∧
          ¬ Separated use := by
  refine ⟨fun calls use reached legal framed => ?_, fun name labels legal unframed => ?_⟩
  · have sound : Sound use := Transition.invariant step (fun _ call => call.Legal ∧ call.Framed)
      Sound (fun _ _ _ sound allowed taken => sound.step allowed.1 allowed.2 taken) sound_empty
      (.of_mem step (fun call member => ⟨legal call member, framed call member⟩) _) reached
    exact sound.separated
  · obtain ⟨others, different, lawful, same⟩ := MetricsRegistry.exists_key_eq legal unframed
    obtain ⟨use, ref, reached, counters⟩ := @run_shared_key F _ _ _ name _ _ same
    refine ⟨others, lawful, use, reached, fun separated => ?_⟩
    have equal := (separated.counters ⟨name, others, ref⟩ (by simp [counters])
      ⟨name, labels, ref⟩ (by simp [counters])).mp rfl
    exact different equal.2

def twoLabels : MetricLabels := { kv := [(ascii "a", ascii "1"), (ascii "b", ascii "2\n3")] }

def twoLookups : List (Call Int) :=
  [.counterMetric (ascii "m") [] twoLabels, .counterMetric (ascii "m") [] .empty, .inc 1 5]

theorem two_lookups_separated :
    ∃ use, Transition.run step {} twoLookups = some use ∧ Separated use := by
  refine ⟨_, rfl, metrics_separated.1 twoLookups _ rfl (by decide) fun call member => ?_⟩
  intro series asked
  simp only [twoLookups, List.mem_cons, List.not_mem_nil, or_false] at member
  rcases member with rfl | rfl | rfl <;> cases asked <;> exact .of_plain (by decide)

/-- One label whose value has a second line that reads as the label `b`. -/
def brokenLabels : MetricLabels := { kv := [(ascii "a", ascii "1\nb=2\n3")] }

/-- One counter serves both the label `a` and the labels `a` and `b`. -/
theorem broken_labels_share_counter :
    ∃ (use : MetricsUse Int) (text : Bytes) (entry : CounterEntry),
      Transition.run step {} [.counterMetric (ascii "m") [] brokenLabels,
        .counterMetric (ascii "m") [] twoLabels, .inc 0 5] = some use ∧
      use.counters = [⟨ascii "m", brokenLabels, 0⟩, ⟨ascii "m", twoLabels, 0⟩] ∧
      use.registry.counters.nodes[0]? = some (text, entry) ∧ entry.counter.value = 5 ∧
      total use.increments (Lookup.Same ⟨ascii "m", twoLabels, 0⟩) = 0 := by
  refine ⟨_, _, _, rfl, rfl, rfl, rfl, ?_⟩
  decide

end MetricsUse

end Chmicro
