import Chmicro.Metrics

set_option autoImplicit false

namespace Chmicro

/-- How the standard library prints a floating-point number. It prints no newline. -/
structure NumberText (F : Type) where
  toString : F → Bytes
  stream : F → Bytes
  toString_newline : ∀ v, newline ∉ toString v
  stream_newline : ∀ v, newline ∉ stream v

def decimal (n : Nat) : Bytes := (Nat.toDigits 10 n).map fun char => char.toNat.toUInt8

def signedText (v : Int64) : Bytes :=
  if v < 0 then ascii "-" ++ decimal v.toInt.natAbs else decimal v.toInt.natAbs

def unsignedText (v : UInt64) : Bytes := decimal v.toNat

theorem digit_of_mem {n : Nat} {char : Char} (digit : char ∈ Nat.toDigits 10 n) :
    48 ≤ char.toNat ∧ char.toNat ≤ 57 := by
  have isDigit := Nat.isDigit_of_mem_toDigits (by decide) (by decide) digit
  simp only [Char.isDigit, Bool.and_eq_true, decide_eq_true_eq] at isDigit
  exact isDigit

theorem mem_decimal {n : Nat} {byte : UInt8} (member : byte ∈ decimal n) :
    48 ≤ byte.toNat ∧ byte.toNat ≤ 57 := by
  obtain ⟨char, digit, same⟩ := List.mem_map.mp member
  have range := digit_of_mem digit
  have value := congrArg UInt8.toNat same
  rw [UInt8.toNat_ofNat'] at value
  omega

theorem decimal_injective {n m : Nat} (same : decimal n = decimal m) : n = m := by
  have read (n : Nat) :
      (decimal n).map (fun byte => Char.ofNat byte.toNat) = Nat.toDigits 10 n := by
    have each : ∀ char ∈ Nat.toDigits 10 n, Char.ofNat char.toNat.toUInt8.toNat = char := by
      intro char digit
      have range := digit_of_mem digit
      have value : char.toNat.toUInt8.toNat = char.toNat := by
        rw [UInt8.toNat_ofNat']
        omega
      rw [value, Char.ofNat_toNat]
    rw [decimal, List.map_map]
    exact (List.map_congr_left each).trans (List.map_id _)
  have digits := congrArg (List.map fun byte => Char.ofNat byte.toNat) same
  rw [read, read] at digits
  rw [← @Nat.ofDigitChars_ten_toDigits n, digits, Nat.ofDigitChars_ten_toDigits]

theorem newline_not_mem_decimal (n : Nat) : newline ∉ decimal n := by
  intro member
  exact absurd (mem_decimal member) (by decide)

theorem newline_not_mem_signedText (v : Int64) : newline ∉ signedText v := by
  unfold signedText
  split
  · rw [List.mem_append, not_or]
    exact ⟨by decide, newline_not_mem_decimal _⟩
  · exact newline_not_mem_decimal _

namespace MetricLabels

def backslash : UInt8 := 92

def quote : UInt8 := 34

/-- The loop over the bytes of a value. -/
def escape (value : Bytes) : Bytes :=
  value.flatMap fun c =>
    if c = backslash ∨ c = quote then [backslash, c]
    else if c = newline then ascii "\\n"
    else [c]

/-- The body of the loop over the labels. The flag says whether the label is the first. -/
def writeLabel (written : Bytes × Bool) (it : Bytes × Bytes) : Bytes × Bool :=
  let oss := if written.2 then written.1 else written.1 ++ ascii ","
  (oss ++ it.1 ++ ascii "=\"" ++ escape it.2 ++ ascii "\"", false)

def toPrometheusLabelText (labels : MetricLabels) : Bytes :=
  if labels.kv = [] then []
  else (labels.kv.foldl writeLabel (ascii "\x7b", true)).1 ++ ascii "\x7d"

/-- What an assignment to `kv[name]` makes of the labels. -/
def insert (name value : Bytes) : List (Bytes × Bytes) → List (Bytes × Bytes)
  | [] => [(name, value)]
  | label :: rest =>
      if label.1 < name then label :: insert name value rest
      else if label.1 = name then (name, value) :: rest
      else (name, value) :: label :: rest

theorem mem_insert {name value : Bytes} {labels : List (Bytes × Bytes)} {label : Bytes × Bytes}
    (member : label ∈ insert name value labels) : label = (name, value) ∨ label ∈ labels := by
  induction labels with
  | nil => exact .inl (List.mem_singleton.mp member)
  | cons other rest ih =>
      unfold insert at member
      split at member
      · rcases List.mem_cons.mp member with rfl | later
        · exact .inr List.mem_cons_self
        · exact (ih later).imp_right (List.mem_cons_of_mem _)
      split at member
      · exact (List.mem_cons.mp member).imp_right (List.mem_cons_of_mem _)
      · exact List.mem_cons.mp member

theorem insert_sorted {name value : Bytes} {labels : List (Bytes × Bytes)}
    (sorted : labels.Pairwise fun label later => label.1 < later.1) :
    (insert name value labels).Pairwise fun label later => label.1 < later.1 := by
  induction labels with
  | nil => exact List.pairwise_singleton _ _
  | cons label rest ih =>
      rw [List.pairwise_cons] at sorted
      unfold insert
      split
      · rename_i before
        apply List.pairwise_cons.mpr
        refine ⟨?_, ih sorted.2⟩
        intro later member
        rcases mem_insert member with rfl | listed
        · exact before
        · exact sorted.1 later listed
      split
      · rename_i same
        rw [← same]
        exact List.pairwise_cons.mpr sorted
      · rename_i before different
        have behind : name < label.1 := Std.lt_of_le_of_ne before (Ne.symm different)
        apply List.pairwise_cons.mpr
        refine ⟨?_, List.pairwise_cons.mpr sorted⟩
        intro later member
        rcases List.mem_cons.mp member with rfl | listed
        · exact behind
        · exact List.lt_trans behind (sorted.1 later listed)

def assign (labels : MetricLabels) (name value : Bytes) : MetricLabels where
  kv := insert name value labels.kv
  sorted := insert_sorted labels.sorted

end MetricLabels

/-- A sample as the name of its series and the rest of its line. -/
def sample (series : Bytes) (labels : MetricLabels) (value : Bytes) : Bytes × Bytes :=
  (series, labels.toPrometheusLabelText ++ ascii " " ++ value)

/-- What is written for one metric. -/
def metricText (name help kind : Bytes) (samples : List (Bytes × Bytes)) : Bytes :=
  ascii "# HELP " ++ name ++ ascii " " ++ help ++ [newline] ++
    ascii "# TYPE " ++ name ++ ascii " " ++ kind ++ [newline] ++
    samples.flatMap fun sample => sample.1 ++ sample.2 ++ [newline]

def CounterEntry.samples (name : Bytes) (entry : CounterEntry) : List (Bytes × Bytes) :=
  [sample name entry.labels (signedText entry.counter.value)]

def GaugeEntry.samples {F : Type} (numbers : NumberText F) (name : Bytes) (entry : GaugeEntry F) :
    List (Bytes × Bytes) :=
  [sample name entry.labels (numbers.stream entry.gauge.value)]

section Histogram

variable {F : Type} [LinearOrder F] (numbers : NumberText F) (name : Bytes)

/-- The loop over the bounds and their counts. -/
def bucketSamples (labels : MetricLabels) : UInt64 → List (F × UInt64) → List (Bytes × Bytes)
  | _, [] => []
  | cumulative, (bound, count) :: rest =>
      let cumulative := cumulative + count
      let bucket := labels.assign (ascii "le") (numbers.toString bound)
      sample (name ++ ascii "_bucket") bucket (unsignedText cumulative) ::
        bucketSamples labels cumulative rest

def HistogramEntry.samples (entry : HistogramEntry F) : List (Bytes × Bytes) :=
  let histogram := entry.histogram
  bucketSamples numbers name entry.labels 0 (histogram.buckets.zip histogram.bucketCounts) ++
    [sample (name ++ ascii "_bucket") (entry.labels.assign (ascii "le") (ascii "+Inf"))
        (unsignedText histogram.count),
      sample (name ++ ascii "_sum") entry.labels (numbers.stream histogram.sum),
      sample (name ++ ascii "_count") entry.labels (unsignedText histogram.count)]

end Histogram

namespace MetricsRegistry

variable {F : Type} [LinearOrder F]

/-- The key up to its first newline. -/
def metricName (key : Bytes) : Bytes := key.takeWhile (· ≠ newline)

/-- An order in which the three hash maps may be walked. -/
structure IterationOrder (registry : MetricsRegistry F) where
  counters : List (Bytes × CounterEntry)
  gauges : List (Bytes × GaugeEntry F)
  histograms : List (Bytes × HistogramEntry F)
  counters_perm : counters.Perm registry.counters.nodes
  gauges_perm : gauges.Perm registry.gauges.nodes
  histograms_perm : histograms.Perm registry.histograms.nodes

/-- The order in which the nodes were made. -/
def allocated (registry : MetricsRegistry F) : IterationOrder registry :=
  ⟨registry.counters.nodes, registry.gauges.nodes, registry.histograms.nodes, .refl _, .refl _,
    .refl _⟩

def toPrometheusText {registry : MetricsRegistry F} (numbers : NumberText F)
    (order : IterationOrder registry) : Bytes :=
  let counters := order.counters.flatMap fun kv =>
    let name := metricName kv.1
    metricText name kv.2.help (ascii "counter") (kv.2.samples name)
  let gauges := order.gauges.flatMap fun kv =>
    let name := metricName kv.1
    metricText name kv.2.help (ascii "gauge") (kv.2.samples numbers name)
  let histograms := order.histograms.flatMap fun kv =>
    let name := metricName kv.1
    metricText name kv.2.help (ascii "histogram") (kv.2.samples numbers name)
  counters ++ gauges ++ histograms

end MetricsRegistry

end Chmicro
