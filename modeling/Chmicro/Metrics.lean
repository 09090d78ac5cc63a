import Mathlib
import Chmicro.NodeMap

set_option autoImplicit false

namespace Chmicro

/-- A `std::string`. Its order, the one `std::map` sorts by, compares bytes as unsigned. -/
abbrev Bytes := List UInt8

/-- The bytes of an ASCII literal. -/
def ascii (literal : String) : Bytes := literal.toList.map fun char => char.toNat.toUInt8

def newline : UInt8 := 10

def equalsSign : UInt8 := 61

/-- The labels of a `std::map`, in the order of their names. -/
structure MetricLabels where
  kv : List (Bytes × Bytes) := []
  sorted : kv.Pairwise fun label later => label.1 < later.1 := by decide
  deriving DecidableEq

/-- The labels of a metric that is looked up without any. -/
def MetricLabels.empty : MetricLabels := {}

/-- An atomic 64-bit integer, whose additions wrap. -/
structure Counter where
  value : Int64 := 0
  deriving DecidableEq

def Counter.inc (counter : Counter) (v : Int64) : Counter := { value := counter.value + v }

structure Gauge (F : Type) where
  value : F

def Gauge.set {F : Type} (_ : Gauge F) (v : F) : Gauge F := { value := v }

/-- The bounds are sorted, and each has its own count. -/
structure Histogram (F : Type) [LinearOrder F] where
  buckets : List F
  bucketCounts : List UInt64
  sum : F
  count : UInt64 := 0
  sorted : buckets.Pairwise (· ≤ ·)
  sized : bucketCounts.length = buckets.length

namespace Histogram

variable {F : Type} [LinearOrder F]

def new [Zero F] (buckets : List F) : Histogram F where
  buckets := buckets.mergeSort
  bucketCounts := List.replicate buckets.length 0
  sum := 0
  sorted := by
    have ordered := @List.pairwise_mergeSort F (fun a b => decide (a ≤ b))
      (fun a b c => by simpa using le_trans) (fun a b => by simpa using le_total a b) buckets
    simpa using ordered
  sized := by simp

/-- The first bound that is not below the value counts it. -/
def observe [Add F] (histogram : Histogram F) (v : F) : Histogram F where
  buckets := histogram.buckets
  bucketCounts :=
    match histogram.buckets.findIdx? fun bound => ¬ bound < v with
    | some index => histogram.bucketCounts.modify index (· + 1)
    | none => histogram.bucketCounts
  sum := histogram.sum + v
  count := histogram.count + 1
  sorted := histogram.sorted
  sized := by
    split
    · rw [List.length_modify, histogram.sized]
    · exact histogram.sized

end Histogram

structure CounterEntry where
  help : Bytes
  labels : MetricLabels
  counter : Counter := {}

structure GaugeEntry (F : Type) where
  help : Bytes
  labels : MetricLabels
  gauge : Gauge F

structure HistogramEntry (F : Type) [LinearOrder F] where
  help : Bytes
  labels : MetricLabels
  histogram : Histogram F

/-- The three hash maps. What their lookups return refers to a node for good. -/
structure MetricsRegistry (F : Type) [LinearOrder F] where
  counters : NodeMap Bytes CounterEntry := .empty
  gauges : NodeMap Bytes (GaugeEntry F) := .empty
  histograms : NodeMap Bytes (HistogramEntry F) := .empty

namespace MetricsRegistry

def key (name : Bytes) (labels : MetricLabels) : Bytes :=
  labels.kv.foldl (fun key label => key ++ label.1 ++ [equalsSign] ++ label.2 ++ [newline])
    (name ++ [newline])

variable {F : Type} [LinearOrder F]

/-- The lookups return the reference of the entry's node. -/
def counterMetric (registry : MetricsRegistry F) (name help : Bytes) (labels : MetricLabels) :
    Nat × MetricsRegistry F :=
  let (ref, counters) := registry.counters.tryEmplace (key name labels) { help, labels }
  (ref, { registry with counters })

def gaugeMetric [Zero F] (registry : MetricsRegistry F) (name help : Bytes)
    (labels : MetricLabels) : Nat × MetricsRegistry F :=
  let (ref, gauges) := registry.gauges.tryEmplace (key name labels)
    { help, labels, gauge := { value := 0 } }
  (ref, { registry with gauges })

def histogramMetric [Zero F] (registry : MetricsRegistry F) (name help : Bytes)
    (buckets : List F) (labels : MetricLabels) : Nat × MetricsRegistry F :=
  let (ref, histograms) := registry.histograms.tryEmplace (key name labels)
    { help, labels, histogram := .new buckets }
  (ref, { registry with histograms })

/-- `Inc` on the counter a reference leads to. -/
def inc (registry : MetricsRegistry F) (ref : Nat) (v : Int64) : MetricsRegistry F :=
  { registry with
    counters := registry.counters.modify ref fun entry =>
      { entry with counter := entry.counter.inc v } }

def set (registry : MetricsRegistry F) (ref : Nat) (v : F) : MetricsRegistry F :=
  { registry with
    gauges := registry.gauges.modify ref fun entry => { entry with gauge := entry.gauge.set v } }

def observe [Add F] (registry : MetricsRegistry F) (ref : Nat) (v : F) : MetricsRegistry F :=
  { registry with
    histograms := registry.histograms.modify ref fun entry =>
      { entry with histogram := entry.histogram.observe v } }

@[simp] theorem inc_counters (registry : MetricsRegistry F) (ref : Nat) (v : Int64) :
    (registry.inc ref v).counters = registry.counters.modify ref fun entry =>
      { entry with counter := entry.counter.inc v } := rfl

@[simp] theorem set_gauges (registry : MetricsRegistry F) (ref : Nat) (v : F) :
    (registry.set ref v).gauges = registry.gauges.modify ref fun entry =>
      { entry with gauge := entry.gauge.set v } := rfl

@[simp] theorem observe_histograms [Add F] (registry : MetricsRegistry F) (ref : Nat) (v : F) :
    (registry.observe ref v).histograms = registry.histograms.modify ref fun entry =>
      { entry with histogram := entry.histogram.observe v } := rfl

end MetricsRegistry

end Chmicro
