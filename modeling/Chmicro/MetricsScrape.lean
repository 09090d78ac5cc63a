import Mathlib
import Chmicro.MetricsExposition
import Chmicro.MetricsSeries

set_option autoImplicit false

namespace Chmicro

/-- A node of one of the three hash maps. -/
inductive NodeRef where
  | counter (ref : Nat)
  | gauge (ref : Nat)
  | histogram (ref : Nat)
  deriving DecidableEq, Repr

section Written

variable (F : Type) [LinearOrder F]

/-- An entry as it stood when it was written out. -/
inductive Written where
  | counter (key : Bytes) (entry : CounterEntry)
  | gauge (key : Bytes) (entry : GaugeEntry F)
  | histogram (key : Bytes) (entry : HistogramEntry F)

/-- A call of `ToPrometheusText`: the nodes it has still to visit, and what it has written. -/
structure Scrape where
  left : List NodeRef
  written : List (NodeRef × Written F) := []

/-- Threads that use the registry. A scrape holds the mutex of the registry until it returns. -/
structure MetricsThreads where
  use : MetricsUse F := {}
  scrape : Option (Scrape F) := none
  done : List (Scrape F) := []

end Written

variable {F : Type} [LinearOrder F]

namespace MetricsRegistry

/-- What is written when a node is visited now. -/
def read (registry : MetricsRegistry F) : NodeRef → Option (Written F)
  | .counter ref => (registry.counters.nodes[ref]?).map fun kv => .counter kv.1 kv.2
  | .gauge ref => (registry.gauges.nodes[ref]?).map fun kv => .gauge kv.1 kv.2
  | .histogram ref => (registry.histograms.nodes[ref]?).map fun kv => .histogram kv.1 kv.2

end MetricsRegistry

open MetricsRegistry

namespace Written

def text (numbers : NumberText F) : Written F → Bytes
  | .counter key entry =>
      let name := metricName key
      metricText name entry.help (ascii "counter") (entry.samples name)
  | .gauge key entry =>
      let name := metricName key
      metricText name entry.help (ascii "gauge") (entry.samples numbers name)
  | .histogram key entry =>
      let name := metricName key
      metricText name entry.help (ascii "histogram") (entry.samples numbers name)

/-- The later one of two texts of a series. A counter has not gone down. -/
inductive Rises : Written F → Written F → Prop where
  | counter (key : Bytes) (entry later : CounterEntry) (help : later.help = entry.help)
      (labels : later.labels = entry.labels) (le : entry.counter.value ≤ later.counter.value) :
      Rises (.counter key entry) (.counter key later)
  | gauge (key : Bytes) (entry later : GaugeEntry F) (help : later.help = entry.help)
      (labels : later.labels = entry.labels) : Rises (.gauge key entry) (.gauge key later)
  | histogram (key : Bytes) (entry later : HistogramEntry F) (help : later.help = entry.help)
      (labels : later.labels = entry.labels)
      (bounds : later.histogram.buckets = entry.histogram.buckets) :
      Rises (.histogram key entry) (.histogram key later)

theorem Rises.refl (written : Written F) : Rises written written := by
  cases written with
  | counter key entry => exact .counter key entry entry rfl rfl (Int64.le_refl _)
  | gauge key entry => exact .gauge key entry entry rfl rfl
  | histogram key entry => exact .histogram key entry entry rfl rfl rfl

theorem Rises.trans {first second third : Written F} (rises : Rises first second)
    (again : Rises second third) : Rises first third := by
  cases rises with
  | counter key entry later help labels le =>
      cases again with
      | counter _ _ last help' labels' le' =>
          exact .counter key entry last (help'.trans help) (labels'.trans labels)
            (Int64.le_trans le le')
  | gauge key entry later help labels =>
      cases again with
      | gauge _ _ last help' labels' =>
          exact .gauge key entry last (help'.trans help) (labels'.trans labels)
  | histogram key entry later help labels bounds =>
      cases again with
      | histogram _ _ last help' labels' bounds' =>
          exact .histogram key entry last (help'.trans help) (labels'.trans labels)
            (bounds'.trans bounds)

end Written

namespace MetricsThreads

inductive Action (F : Type) where
  | call (call : MetricsUse.Call F)
  | lock (counters gauges histograms : List Nat)
  | visit
  | unlock

/-- Lookups wait for the mutex. The metrics themselves do not know of it. -/
def step [Zero F] [Add F] (threads : MetricsThreads F) : Action F → Option (MetricsThreads F)
  | .call call =>
      if call.series.isSome ∧ threads.scrape.isSome then none
      else (threads.use.step call).map fun use => { threads with use }
  | .lock counters gauges histograms =>
      let registry := threads.use.registry
      -- The maps are walked one after the other, each in any order.
      if threads.scrape.isNone ∧ counters.Perm (List.range registry.counters.nodes.length) ∧
          gauges.Perm (List.range registry.gauges.nodes.length) ∧
          histograms.Perm (List.range registry.histograms.nodes.length) then
        some { threads with
          scrape := some
            { left := counters.map .counter ++ gauges.map .gauge ++ histograms.map .histogram } }
      else none
  | .visit =>
      match threads.scrape with
      | some { left := ref :: left, written } =>
          (threads.use.registry.read ref).map fun entry =>
            { threads with scrape := some { left, written := written ++ [(ref, entry)] } }
      | _ => none
  | .unlock =>
      match threads.scrape with
      | some { left := [], written } =>
          some { threads with scrape := none, done := threads.done ++ [{ left := [], written }] }
      | _ => none

/-- Counters are only added to, and none of them overflows. -/
def Rising (threads : MetricsThreads F) : Action F → Prop
  | .call (.inc lookup v) =>
      0 ≤ v ∧ ∀ found ∈ threads.use.counters[lookup]?,
        ∀ node ∈ threads.use.registry.counters.nodes[found.ref]?,
          node.2.counter.value.toInt + v.toInt < 2 ^ 63
  | _ => True

instance (threads : MetricsThreads F) (action : Action F) : Decidable (Rising threads action) := by
  unfold Rising
  split <;> infer_instance

section Calls

/-- Every node is still there, and its entry has not gone back. -/
def Grows (before after : MetricsRegistry F) : Prop :=
  ∀ ref entry, before.read ref = some entry → ∃ later, after.read ref = some later ∧
    entry.Rises later

/-- No node is new. -/
def Kept (before after : MetricsRegistry F) : Prop :=
  ∀ ref later, after.read ref = some later → ∃ entry, before.read ref = some entry ∧
    entry.Rises later

variable {before after : MetricsRegistry F}

/-- Entries change one by one. -/
theorem grows_kept (each : ∀ ref, Option.Rel Written.Rises (before.read ref) (after.read ref)) :
    Grows before after ∧ Kept before after := by
  constructor
  · intro ref entry found
    have related := each ref
    rw [found] at related
    cases standing : after.read ref with
    | none =>
        rw [standing] at related
        cases related
    | some later =>
        rw [standing] at related
        cases related with
        | some rises => exact ⟨later, rfl, rises⟩
  · intro ref later found
    have related := each ref
    rw [found] at related
    cases standing : before.read ref with
    | none =>
        rw [standing] at related
        cases related
    | some entry =>
        rw [standing] at related
        cases related with
        | some rises => exact ⟨entry, rfl, rises⟩

theorem rel_refl (found : Option (Written F)) : Option.Rel Written.Rises found found := by
  cases found with
  | none => exact .none
  | some entry => exact .some (.refl entry)

/-- A sum that does not overflow is not below its first part. -/
theorem le_add {value v : Int64} (positive : 0 ≤ v) (fits : value.toInt + v.toInt < 2 ^ 63) :
    value ≤ value + v := by
  have low := Int64.le_iff_toInt_le.mp positive
  have range := value.le_toInt
  rw [Int64.toInt_zero] at low
  rw [Int64.le_iff_toInt_le, Int64.toInt_add, Int.bmod_eq_of_le (by omega) (by omega)]
  omega

variable (registry : MetricsRegistry F)

theorem inc_rel {ref : Nat} {v : Int64} (positive : 0 ≤ v)
    (fits : ∀ node ∈ registry.counters.nodes[ref]?,
      node.2.counter.value.toInt + v.toInt < 2 ^ 63) (other : NodeRef) :
    Option.Rel Written.Rises (registry.read other) ((registry.inc ref v).read other) := by
  cases other with
  | gauge index => exact rel_refl _
  | histogram index => exact rel_refl _
  | counter index =>
      simp only [MetricsRegistry.read, inc_counters, NodeMap.modify_node]
      cases found : registry.counters.nodes[index]? with
      | none => exact .none
      | some node =>
          refine .some ?_
          dsimp only
          by_cases here : ref = index
          · subst here
            rw [if_pos rfl]
            exact .counter _ _ _ rfl rfl (le_add positive (fits node found))
          · rw [if_neg here]
            exact .refl _

theorem set_rel (ref : Nat) (v : F) (other : NodeRef) :
    Option.Rel Written.Rises (registry.read other) ((registry.set ref v).read other) := by
  cases other with
  | counter index => exact rel_refl _
  | histogram index => exact rel_refl _
  | gauge index =>
      simp only [MetricsRegistry.read, MetricsRegistry.set, NodeMap.modify_node]
      cases registry.gauges.nodes[index]? with
      | none => exact .none
      | some node =>
          refine .some ?_
          dsimp only
          by_cases here : ref = index
          · rw [if_pos here]
            exact .gauge _ _ _ rfl rfl
          · rw [if_neg here]
            exact .refl _

theorem observe_rel [Add F] (ref : Nat) (v : F) (other : NodeRef) :
    Option.Rel Written.Rises (registry.read other) ((registry.observe ref v).read other) := by
  cases other with
  | counter index => exact rel_refl _
  | gauge index => exact rel_refl _
  | histogram index =>
      simp only [MetricsRegistry.read, MetricsRegistry.observe, NodeMap.modify_node]
      cases registry.histograms.nodes[index]? with
      | none => exact .none
      | some node =>
          refine .some ?_
          dsimp only
          by_cases here : ref = index
          · rw [if_pos here]
            exact .histogram _ _ _ rfl rfl rfl
          · rw [if_neg here]
            exact .refl _

theorem grows_counterMetric (name help : Bytes) (labels : MetricLabels) :
    Grows registry (registry.counterMetric name help labels).2 := by
  intro ref entry found
  refine ⟨entry, ?_, .refl entry⟩
  cases ref with
  | gauge index => exact found
  | histogram index => exact found
  | counter index =>
      obtain ⟨node, standing, rfl⟩ := Option.map_eq_some_iff.mp found
      exact Option.map_eq_some_iff.mpr ⟨node, registry.counters.tryEmplace_kept _ _ standing, rfl⟩

variable [Zero F]

theorem grows_gaugeMetric (name help : Bytes) (labels : MetricLabels) :
    Grows registry (registry.gaugeMetric name help labels).2 := by
  intro ref entry found
  refine ⟨entry, ?_, .refl entry⟩
  cases ref with
  | counter index => exact found
  | histogram index => exact found
  | gauge index =>
      obtain ⟨node, standing, rfl⟩ := Option.map_eq_some_iff.mp found
      exact Option.map_eq_some_iff.mpr ⟨node, registry.gauges.tryEmplace_kept _ _ standing, rfl⟩

theorem grows_histogramMetric (name help : Bytes) (buckets : List F) (labels : MetricLabels) :
    Grows registry (registry.histogramMetric name help buckets labels).2 := by
  intro ref entry found
  refine ⟨entry, ?_, .refl entry⟩
  cases ref with
  | counter index => exact found
  | gauge index => exact found
  | histogram index =>
      obtain ⟨node, standing, rfl⟩ := Option.map_eq_some_iff.mp found
      exact Option.map_eq_some_iff.mpr ⟨node, registry.histograms.tryEmplace_kept _ _ standing, rfl⟩

end Calls

/-- The nodes are those up to the sizes of the maps. -/
theorem mem_walk {registry : MetricsRegistry F} {counters gauges histograms : List Nat}
    (all : counters.Perm (List.range registry.counters.nodes.length))
    (allGauges : gauges.Perm (List.range registry.gauges.nodes.length))
    (allHistograms : histograms.Perm (List.range registry.histograms.nodes.length))
    {ref : NodeRef} {entry : Written F} (found : registry.read ref = some entry) :
    ref ∈ counters.map NodeRef.counter ++ gauges.map .gauge ++ histograms.map .histogram := by
  simp only [List.mem_append, List.mem_map]
  cases ref with
  | counter index =>
      obtain ⟨node, standing, -⟩ := Option.map_eq_some_iff.mp found
      have inside := (List.getElem?_eq_some_iff.mp standing).1
      exact .inl (.inl ⟨index, all.mem_iff.mpr (List.mem_range.mpr inside), rfl⟩)
  | gauge index =>
      obtain ⟨node, standing, -⟩ := Option.map_eq_some_iff.mp found
      have inside := (List.getElem?_eq_some_iff.mp standing).1
      exact .inl (.inr ⟨index, allGauges.mem_iff.mpr (List.mem_range.mpr inside), rfl⟩)
  | histogram index =>
      obtain ⟨node, standing, -⟩ := Option.map_eq_some_iff.mp found
      have inside := (List.getElem?_eq_some_iff.mp standing).1
      exact .inr ⟨index, allHistograms.mem_iff.mpr (List.mem_range.mpr inside), rfl⟩

section Steps

variable [Zero F] [Add F] {threads after : MetricsThreads F}

/-- What a call leaves of the registry. Only lookups make nodes. -/
theorem call_grows {call : MetricsUse.Call F} {use : MetricsUse F}
    (rising : Rising threads (.call call)) (taken : threads.use.step call = some use) :
    Grows threads.use.registry use.registry ∧
      (call.series = none → Kept threads.use.registry use.registry) := by
  cases call with
  | counterMetric name help labels =>
      cases taken
      exact ⟨grows_counterMetric _ name help labels, fun impossible => by cases impossible⟩
  | gaugeMetric name help labels =>
      cases taken
      exact ⟨grows_gaugeMetric _ name help labels, fun impossible => by cases impossible⟩
  | histogramMetric name help buckets labels =>
      cases taken
      exact ⟨grows_histogramMetric _ name help buckets labels,
        fun impossible => by cases impossible⟩
  | inc lookup v =>
      obtain ⟨found, standing, rfl⟩ := Option.map_eq_some_iff.mp taken
      obtain ⟨grows, kept⟩ := grows_kept
        (inc_rel threads.use.registry rising.1 (rising.2 found standing))
      exact ⟨grows, fun _ => kept⟩
  | set lookup v =>
      obtain ⟨found, -, rfl⟩ := Option.map_eq_some_iff.mp taken
      obtain ⟨grows, kept⟩ := grows_kept (set_rel threads.use.registry found.ref v)
      exact ⟨grows, fun _ => kept⟩
  | observe lookup v =>
      obtain ⟨found, -, rfl⟩ := Option.map_eq_some_iff.mp taken
      obtain ⟨grows, kept⟩ := grows_kept (observe_rel threads.use.registry found.ref v)
      exact ⟨grows, fun _ => kept⟩

/-- What a scrape under way has written since it took the mutex. -/
structure Visits (threads : MetricsThreads F) (scrape : Scrape F) : Prop where
  /-- Each node is still to be visited, or written no earlier than in the scrapes before. -/
  each : ∀ ref entry, threads.use.registry.read ref = some entry → ref ∈ scrape.left ∨
    ∃ written, (ref, written) ∈ scrape.written ∧ written.Rises entry ∧
      ∀ before ∈ threads.done, ∀ old, (ref, old) ∈ before.written → old.Rises written
  current : ∀ ref written, (ref, written) ∈ scrape.written →
    ∃ entry, threads.use.registry.read ref = some entry ∧ written.Rises entry

/-- What the scrapes have written never goes back. -/
structure Ascending (threads : MetricsThreads F) : Prop where
  current : ∀ scrape ∈ threads.done, ∀ ref written, (ref, written) ∈ scrape.written →
    ∃ entry, threads.use.registry.read ref = some entry ∧ written.Rises entry
  visits : ∀ scrape ∈ threads.scrape, Visits threads scrape
  ordered : threads.done.Pairwise fun before later => ∀ ref old, (ref, old) ∈ before.written →
    ∃ written, (ref, written) ∈ later.written ∧ old.Rises written

variable (ascending : Ascending threads)

include ascending

theorem Ascending.call {call : MetricsUse.Call F} (rising : Rising threads (.call call))
    (taken : threads.step (.call call) = some after) : Ascending after := by
  simp only [step] at taken
  split at taken
  · cases taken
  rename_i free
  obtain ⟨use, moved, rfl⟩ := Option.map_eq_some_iff.mp taken
  obtain ⟨grows, kept⟩ := call_grows rising moved
  have later {ref : NodeRef} {written : Written F}
      (found : ∃ entry, threads.use.registry.read ref = some entry ∧ written.Rises entry) :
      ∃ entry, use.registry.read ref = some entry ∧ written.Rises entry := by
    obtain ⟨entry, standing, rises⟩ := found
    obtain ⟨later, now, again⟩ := grows ref entry standing
    exact ⟨later, now, rises.trans again⟩
  refine ⟨?_, fun scrape underway => ⟨?_, ?_⟩, ascending.ordered⟩
  · exact fun scrape member ref written listed =>
      later (ascending.current scrape member ref written listed)
  · -- A lookup would have waited, so the node was there before.
    have noLookup : call.series = none := by
      rw [← Option.not_isSome_iff_eq_none]
      intro lookup
      exact free ⟨lookup, Option.isSome_of_mem underway⟩
    intro ref entry found
    obtain ⟨old, standing, rises⟩ := kept noLookup ref entry found
    rcases (ascending.visits scrape underway).each ref old standing with left |
      ⟨written, listed, upTo, since⟩
    · exact .inl left
    · exact .inr ⟨written, listed, upTo.trans rises, since⟩
  · exact fun ref written listed =>
      later ((ascending.visits scrape underway).current ref written listed)

theorem Ascending.lock {counters gauges histograms : List Nat}
    (taken : threads.step (.lock counters gauges histograms) = some after) : Ascending after := by
  simp only [step] at taken
  split at taken
  · rename_i free
    cases taken
    refine ⟨ascending.current, fun scrape underway => ?_, ascending.ordered⟩
    cases underway
    refine ⟨fun ref entry found => .inl ?_, fun ref written listed => by cases listed⟩
    exact mem_walk free.2.1 free.2.2.1 free.2.2.2 found
  · cases taken

theorem Ascending.visit (taken : threads.step .visit = some after) : Ascending after := by
  simp only [step] at taken
  split at taken
  · rename_i ref left written underway
    obtain ⟨entry, found, rfl⟩ := Option.map_eq_some_iff.mp taken
    have visits := ascending.visits _ underway
    refine ⟨ascending.current, fun scrape same => ?_, ascending.ordered⟩
    cases same
    refine ⟨fun other now standing => ?_, fun other old listed => ?_⟩
    · rcases visits.each other now standing with waiting | ⟨past, listed, upTo, since⟩
      · rcases List.mem_cons.mp waiting with rfl | later
        · -- The node is written as it stands, and nothing before is later.
          obtain rfl : now = entry := Option.some.inj (standing.symm.trans found)
          refine .inr ⟨now, by simp, .refl now, fun before member old listed => ?_⟩
          obtain ⟨current, there, rises⟩ := ascending.current before member other old listed
          obtain rfl : current = now := Option.some.inj (there.symm.trans standing)
          exact rises
        · exact .inl later
      · exact .inr ⟨past, List.mem_append_left _ listed, upTo, since⟩
    · rcases List.mem_append.mp listed with before | new
      · exact visits.current other old before
      · cases List.mem_singleton.mp new
        exact ⟨entry, found, .refl entry⟩
  · cases taken

theorem Ascending.unlock (taken : threads.step .unlock = some after) : Ascending after := by
  simp only [step] at taken
  split at taken
  · rename_i written underway
    cases taken
    have visits := ascending.visits _ underway
    refine ⟨fun scrape member => ?_, fun scrape same => (by cases same), ?_⟩
    · rcases List.mem_append.mp member with old | new
      · exact ascending.current scrape old
      · rw [List.mem_singleton.mp new]
        exact visits.current
    · apply List.pairwise_append.mpr
      refine ⟨ascending.ordered, List.pairwise_singleton _ _, fun before member last new => ?_⟩
      rw [List.mem_singleton.mp new]
      intro ref old listed
      obtain ⟨entry, standing, -⟩ := ascending.current before member ref old listed
      rcases visits.each ref entry standing with impossible | ⟨past, found, -, since⟩
      · cases impossible
      · exact ⟨past, found, since before member old listed⟩
  · cases taken

theorem Ascending.step {action : Action F} (rising : Rising threads action)
    (taken : threads.step action = some after) : Ascending after := by
  cases action with
  | call call => exact ascending.call rising taken
  | lock counters gauges histograms => exact ascending.lock taken
  | visit => exact ascending.visit taken
  | unlock => exact ascending.unlock taken

end Steps

section Alone

variable {counters gauges histograms : List Nat}

theorem filterMap_range {α : Type} (items : List α) :
    (List.range items.length).filterMap (items[·]?) = items := by
  induction items with
  | nil => rfl
  | cons item rest ih =>
      rw [List.length_cons, List.range_succ_eq_map, List.filterMap_cons]
      dsimp only [List.getElem?_cons_zero]
      rw [List.filterMap_map]
      exact congrArg (item :: ·) ih

theorem visited_perm {α : Type} {items : List α} {order : List Nat}
    (all : order.Perm (List.range items.length)) : (order.filterMap (items[·]?)).Perm items := by
  have same := all.filterMap (items[·]?)
  rwa [filterMap_range] at same

/-- The order that a scrape walks the maps in. -/
def walked (registry : MetricsRegistry F)
    (all : counters.Perm (List.range registry.counters.nodes.length))
    (allGauges : gauges.Perm (List.range registry.gauges.nodes.length))
    (allHistograms : histograms.Perm (List.range registry.histograms.nodes.length)) :
    IterationOrder registry where
  counters := counters.filterMap (registry.counters.nodes[·]?)
  gauges := gauges.filterMap (registry.gauges.nodes[·]?)
  histograms := histograms.filterMap (registry.histograms.nodes[·]?)
  counters_perm := visited_perm all
  gauges_perm := visited_perm allGauges
  histograms_perm := visited_perm allHistograms

/-- What a scrape writes when no metric changes meanwhile. -/
theorem read_text (registry : MetricsRegistry F) (numbers : NumberText F)
    (all : counters.Perm (List.range registry.counters.nodes.length))
    (allGauges : gauges.Perm (List.range registry.gauges.nodes.length))
    (allHistograms : histograms.Perm (List.range registry.histograms.nodes.length)) :
    ((counters.map NodeRef.counter ++ gauges.map NodeRef.gauge ++
        histograms.map NodeRef.histogram).filterMap registry.read).flatMap (Written.text numbers) =
        toPrometheusText numbers (walked registry all allGauges allHistograms) := by
  have kind {α : Type} (items : List α) (order : List Nat) (ref : Nat → NodeRef)
      (entry : α → Written F) (reads : ∀ index, registry.read (ref index) = items[index]?.map entry) :
      (order.map ref).filterMap registry.read = (order.filterMap (items[·]?)).map entry := by
    rw [List.filterMap_map, List.map_filterMap]
    exact congrArg (order.filterMap ·) (funext reads)
  rw [List.filterMap_append, List.filterMap_append, List.flatMap_append, List.flatMap_append,
    kind registry.counters.nodes counters .counter (fun kv => .counter kv.1 kv.2) fun _ => rfl,
    kind registry.gauges.nodes gauges .gauge (fun kv => .gauge kv.1 kv.2) fun _ => rfl,
    kind registry.histograms.nodes histograms .histogram (fun kv => .histogram kv.1 kv.2)
      fun _ => rfl,
    List.flatMap_map, List.flatMap_map, List.flatMap_map]
  rfl

/-- What the nodes show now. -/
def visited (registry : MetricsRegistry F) (left : List NodeRef) : List (NodeRef × Written F) :=
  left.filterMap fun ref => (registry.read ref).map (ref, ·)

/-- Whatever is left is visited, one node after the other. -/
theorem run_visits [Zero F] [Add F] (threads : MetricsThreads F) {left : List NodeRef}
    (there : ∀ ref ∈ left, (threads.use.registry.read ref).isSome)
    (written : List (NodeRef × Written F)) :
    Transition.run step { threads with scrape := some ⟨left, written⟩ }
        (left.map fun _ => .visit) =
      some { threads with
        scrape := some ⟨[], written ++ visited threads.use.registry left⟩ } := by
  induction left generalizing written with
  | nil => simp [visited]
  | cons ref rest ih =>
      obtain ⟨entry, found⟩ := Option.isSome_iff_exists.mp (there ref List.mem_cons_self)
      have later := ih (fun other member => there other (List.mem_cons_of_mem _ member))
        (written ++ [(ref, entry)])
      have first : visited threads.use.registry (ref :: rest) =
          (ref, entry) :: visited threads.use.registry rest := by
        rw [visited, List.filterMap_cons, found]
        rfl
      rw [List.map_cons, Transition.run_cons, step]
      dsimp only
      rw [found, Option.map_some, Option.bind_some, later, first, List.append_assoc]
      rfl

/-- A scrape that nothing comes between writes the text of the registry. -/
theorem scrape_alone [Zero F] [Add F] (threads : MetricsThreads F) (free : threads.scrape = none)
    (numbers : NumberText F)
    (all : counters.Perm (List.range threads.use.registry.counters.nodes.length))
    (allGauges : gauges.Perm (List.range threads.use.registry.gauges.nodes.length))
    (allHistograms : histograms.Perm (List.range threads.use.registry.histograms.nodes.length)) :
    ∃ scrape, Transition.run step threads (.lock counters gauges histograms ::
        ((counters.map NodeRef.counter ++ gauges.map NodeRef.gauge ++
          histograms.map NodeRef.histogram).map fun _ => .visit) ++ [.unlock]) =
        some { threads with done := threads.done ++ [scrape] } ∧
      scrape.written.flatMap (fun entry => entry.2.text numbers) =
        toPrometheusText numbers (walked threads.use.registry all allGauges allHistograms) := by
  let left := counters.map NodeRef.counter ++ gauges.map NodeRef.gauge ++
    histograms.map NodeRef.histogram
  have there : ∀ ref ∈ left, (threads.use.registry.read ref).isSome := by
    have inside {order : List Nat} {count : Nat} (perm : order.Perm (List.range count)) :
        ∀ index ∈ order, index < count := fun index member =>
      List.mem_range.mp (perm.mem_iff.mp member)
    simp only [left, List.forall_mem_append, List.forall_mem_map, MetricsRegistry.read,
      Option.isSome_map, isSome_getElem?]
    exact ⟨⟨inside all, inside allGauges⟩, inside allHistograms⟩
  refine ⟨⟨[], visited threads.use.registry left⟩, ?_, ?_⟩
  · have locked : step threads (.lock counters gauges histograms) =
        some { threads with scrape := some ⟨left, []⟩ } := by
      rw [step, if_pos ⟨by rw [free]; rfl, all, allGauges, allHistograms⟩]
    rw [List.cons_append, Transition.run_cons, locked, Option.bind_some, Transition.run_append,
      run_visits threads there, Option.bind_some, Transition.run_cons, step]
    dsimp only
    rw [Option.bind_some, Transition.run_nil, ← free]
    rfl
  · have entries : (visited threads.use.registry left).map Prod.snd =
        left.filterMap threads.use.registry.read := by
      rw [visited, List.map_filterMap]
      refine congrArg (left.filterMap ·) (funext fun ref => ?_)
      rw [Option.map_map]
      exact Option.map_id'
    rw [← read_text, ← entries, List.flatMap_map]

end Alone

section Runs

open Transition

variable [Zero F] [Add F]

/-- In every run, however scrapes, lookups and changes of metrics interleave, each scrape writes
every series that an earlier one has written, with the same help, labels and bounds, and with a
counter that has not gone down. -/
theorem scrapes_rise (actions : List (Action F)) (threads : MetricsThreads F)
    (reached : run step {} actions = some threads) (rising : Meets step Rising {} actions) :
    threads.done.Pairwise fun before later => ∀ ref old, (ref, old) ∈ before.written →
      ∃ written, (ref, written) ∈ later.written ∧ old.Rises written := by
  have initial : Ascending ({} : MetricsThreads F) :=
    ⟨fun _ impossible => (by cases impossible), fun _ impossible => (by cases impossible), .nil⟩
  exact (invariant step Rising Ascending (fun _ _ _ ascending rising taken =>
    ascending.step rising taken) initial rising reached).ordered

/-- A counter is increased while it is scraped, before and after it is visited. -/
def scrapedWhileCounted : List (Action ℚ) :=
  [.call (.counterMetric (ascii "requests") [] MetricsUse.twoLabels), .lock [0] [] [],
    .call (.inc 0 1), .visit, .call (.inc 0 2), .unlock, .lock [0] [] [], .visit, .unlock]

theorem scrapes_rise_while_counted : ∃ threads,
    run step ({} : MetricsThreads ℚ) scrapedWhileCounted = some threads ∧
    threads.done.length = 2 ∧
    threads.done.Pairwise fun before later => ∀ ref old, (ref, old) ∈ before.written →
      ∃ written, (ref, written) ∈ later.written ∧ old.Rises written := by
  refine ⟨_, rfl, rfl, scrapes_rise scrapedWhileCounted _ rfl ?_⟩
  decide +kernel

end Runs

end MetricsThreads

end Chmicro
