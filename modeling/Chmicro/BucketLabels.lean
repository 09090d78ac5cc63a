import Mathlib
import Chmicro.ExpositionLabels
import Chmicro.HistogramCumulative

set_option autoImplicit false

namespace Chmicro

section FixedNotation

def minusSign : UInt8 := 45

def point : UInt8 := 46

/-- The nearest integer, and the even one of two that are as near. -/
def nearest (x : ℚ) : Int :=
  if x - x.floor < 1 / 2 then x.floor
  else if 1 / 2 < x - x.floor then x.floor + 1
  else if x.floor % 2 = 0 then x.floor
  else x.floor + 1

def millionths (v : ℚ) : Nat := (nearest (|v| * 1000000)).toNat

def sixDigits (n : Nat) : Bytes :=
  [100000, 10000, 1000, 100, 10, 1].map fun place => (48 + n / place % 10).toUInt8

/-- `std::to_string` of a number that is exactly this one. -/
def fixedText (v : ℚ) : Bytes :=
  (if v < 0 then [minusSign] else []) ++ decimal (millionths v / 1000000) ++
    point :: sixDigits (millionths v)

theorem mem_sixDigits {n : Nat} {byte : UInt8} (member : byte ∈ sixDigits n) :
    48 ≤ byte.toNat ∧ byte.toNat ≤ 57 := by
  obtain ⟨place, -, same⟩ := List.mem_map.mp member
  have value := congrArg UInt8.toNat same
  rw [UInt8.toNat_ofNat'] at value
  omega

theorem sixDigits_injective {n m : Nat} (same : sixDigits n = sixDigits m) :
    n % 1000000 = m % 1000000 := by
  have digit (place : Nat) (member : place ∈ [100000, 10000, 1000, 100, 10, 1]) :
      n / place % 10 = m / place % 10 := by
    have bytes := congrArg UInt8.toNat (List.map_inj_left.mp same place member)
    rw [UInt8.toNat_ofNat', UInt8.toNat_ofNat'] at bytes
    omega
  have first := digit 100000 (by simp)
  have second := digit 10000 (by simp)
  have third := digit 1000 (by simp)
  have fourth := digit 100 (by simp)
  have fifth := digit 10 (by simp)
  have sixth := digit 1 (by simp)
  omega

/-- The sign is the only hyphen. -/
theorem minusSign_mem_fixedText (v : ℚ) : minusSign ∈ fixedText v ↔ v < 0 := by
  have whole : minusSign ∉ decimal (millionths v / 1000000) := fun member =>
    absurd (mem_decimal member) (by decide)
  have part : minusSign ∉ sixDigits (millionths v) := fun member =>
    absurd (mem_sixDigits member) (by decide)
  have dot : minusSign ≠ point := by decide
  unfold fixedText
  split
  · rename_i negative
    simp [negative]
  · rename_i positive
    simp [positive, whole, part, dot]

theorem fixedText_eq_iff (b c : ℚ) :
    fixedText b = fixedText c ↔ (b < 0 ↔ c < 0) ∧ millionths b = millionths c := by
  constructor
  · intro same
    have sign : b < 0 ↔ c < 0 := by
      rw [← minusSign_mem_fixedText b, same, minusSign_mem_fixedText c]
    have signs : (if b < 0 then [minusSign] else []) = if c < 0 then [minusSign] else [] := by
      simp only [sign]
    unfold fixedText at same
    have ⟨front, back⟩ := List.append_inj' same rfl
    rw [signs] at front
    have whole := decimal_injective (List.append_cancel_left front)
    have part := sixDigits_injective (List.cons.inj back).2
    constructor
    · exact sign
    · omega
  · intro ⟨sign, value⟩
    simp only [fixedText, sign, value]

end FixedNotation

section Buckets

/-- Numbers printed by `std::to_string` and, for the sums, in some other way. -/
def fixedNotation (stream : ℚ → Bytes) (plain : ∀ v, newline ∉ stream v) : NumberText ℚ where
  toString := fixedText
  stream := stream
  toString_newline v := by
    have sign : newline ∉ if v < 0 then [minusSign] else [] := by
      split <;> decide
    have part : newline ∉ sixDigits (millionths v) := fun member =>
      absurd (mem_sixDigits member) (by decide)
    have whole := newline_not_mem_decimal (millionths v / 1000000)
    have dot : newline ≠ point := by decide
    rw [fixedText, List.mem_append, List.mem_append, List.mem_cons]
    tauto
  stream_newline := plain

end Buckets

section Le

open PrometheusText MetricLabels

theorem MetricLabels.escape_injective : Function.Injective escape := by
  intro value other same
  have read (value : Bytes) : readBytes ([], .value [] []) (escape value) =
      some ([], .value [] value) := by
    have escaped := readBytes_escape [] [] [] [] value
    rwa [List.append_nil, List.nil_append] at escaped
  have both := read value
  rw [same, read other] at both
  simpa using both.symm

/-- The assignment changes one label and none before or after it. -/
theorem MetricLabels.insert_split (name : Bytes) (labels : List (Bytes × Bytes)) :
    ∃ front back, ∀ value, insert name value labels = front ++ (name, value) :: back := by
  induction labels with
  | nil => exact ⟨[], [], fun _ => rfl⟩
  | cons label rest ih =>
      obtain ⟨front, back, split_⟩ := ih
      by_cases before : label.1 < name
      · refine ⟨label :: front, back, fun value => ?_⟩
        rw [insert, if_pos before, split_ value, List.cons_append]
      by_cases same : label.1 = name
      · exact ⟨[], rest, fun value => by rw [insert, if_neg before, if_pos same, List.nil_append]⟩
      · exact ⟨[], label :: rest, fun value => by
          rw [insert, if_neg before, if_neg same, List.nil_append]⟩

theorem MetricLabels.assign_text (labels : MetricLabels) (name : Bytes) :
    ∃ before after, ∀ value, (labels.assign name value).toPrometheusLabelText =
      before ++ escape value ++ after := by
  obtain ⟨front, back, split_⟩ := insert_split name labels.kv
  cases front with
  | nil =>
      refine ⟨brace :: (name ++ ascii "=\""), ascii "\"" ++
        back.flatMap (fun label => ascii "," ++ pairText label) ++ ascii "\x7d", fun value => ?_⟩
      rw [toPrometheusLabelText_cons (show (labels.assign name value).kv = _ from split_ value)]
      simp [pairText]
  | cons first front =>
      refine ⟨brace :: (pairText first ++
        front.flatMap (fun label => ascii "," ++ pairText label) ++ ascii "," ++ name ++
          ascii "=\""), ascii "\"" ++
        back.flatMap (fun label => ascii "," ++ pairText label) ++ ascii "\x7d", fun value => ?_⟩
      rw [toPrometheusLabelText_cons (show (labels.assign name value).kv = _ from split_ value)]
      simp [pairText]

/-- The line shows the labels with this value of `le`. Its last space ends them. -/
def CarriesLe (labels : MetricLabels) (le : Bytes) (line : Bytes × Bytes) : Prop :=
  ∃ value, space ∉ value ∧
    line.2 = (labels.assign (ascii "le") le).toPrometheusLabelText ++ ascii " " ++ value

theorem CarriesLe.unique {labels : MetricLabels} {le other : Bytes} {line : Bytes × Bytes}
    (carries : CarriesLe labels le line) (also_ : CarriesLe labels other line) : le = other := by
  obtain ⟨value, plain, shown⟩ := carries
  obtain ⟨text, bare, same⟩ := also_
  rw [shown] at same
  have mirrored := congrArg List.reverse same
  simp only [List.reverse_append, show (ascii " ").reverse = [space] from rfl,
    List.append_assoc, List.singleton_append] at mirrored
  obtain ⟨-, labelTexts⟩ := KeyedText.append_separator_inj mirrored (by simpa using plain)
    (by simpa using bare)
  obtain ⟨before, after, written⟩ := labels.assign_text (ascii "le")
  have texts := List.reverse_injective labelTexts
  rw [written, written] at texts
  exact escape_injective (List.append_cancel_left (List.append_cancel_right texts))

theorem carriesLe_sample (labels : MetricLabels) (series le : Bytes) (n : UInt64) :
    CarriesLe labels le (sample series (labels.assign (ascii "le") le) (unsignedText n)) := by
  refine ⟨unsignedText n, ?_, rfl⟩
  intro member
  exact absurd (mem_decimal member) (by decide)

end Le

section Lines

open PrometheusText

variable {F : Type} [LinearOrder F] [Zero F] [Add F] (numbers : NumberText F) (name : Bytes)

/-- The lines of the bounds and the line of all observations. -/
def bucketLines (name : Bytes) (printed : List (Bytes × Bytes)) : List (Bytes × Bytes) :=
  printed.filter fun line => line.1 = name ++ ascii "_bucket"

/-- What the bucket lines carry, and what they count. -/
theorem bucketLines_observed (help : Bytes) (labels : MetricLabels)
    (buckets observations : List F) :
    bucketLines name
        ((HistogramEntry.mk help labels (.observed buckets observations)).samples numbers name) =
      ((buckets.mergeSort.map fun bound =>
          (numbers.toString bound, UInt64.ofNat (observations.countP (· ≤ bound)))) ++
        [(ascii "+Inf", UInt64.ofNat observations.length)]).map fun bucket =>
          sample (name ++ ascii "_bucket") (labels.assign (ascii "le") bucket.1)
            (unsignedText bucket.2) := by
  have sum : name ++ ascii "_sum" ≠ name ++ ascii "_bucket" := fun same =>
    absurd (List.append_cancel_left same) (by decide)
  have count : name ++ ascii "_count" ≠ name ++ ascii "_bucket" := fun same =>
    absurd (List.append_cancel_left same) (by decide)
  rw [bucketLines, observed_samples, List.filter_append, List.map_append, List.map_map]
  congr 1
  · apply List.filter_eq_self.mpr
    intro line member
    obtain ⟨bound, -, rfl⟩ := List.mem_map.mp member
    exact decide_eq_true rfl
  · simp [sample, sum, count]

/-- No two of the lines carry one value of `le`. -/
def LeApart (labels : MetricLabels) (lines : List (Bytes × Bytes)) : Prop :=
  lines.Pairwise fun line later => ∀ le, CarriesLe labels le line → ¬ CarriesLe labels le later

theorem leApart_observed_iff (help : Bytes) (labels : MetricLabels)
    (buckets observations : List F) :
    LeApart labels (bucketLines name
        ((HistogramEntry.mk help labels (.observed buckets observations)).samples numbers name)) ↔
      (buckets.mergeSort.map numbers.toString ++ [ascii "+Inf"]).Nodup := by
  have each (series le other : Bytes) (n m : UInt64) :
      (∀ value, CarriesLe labels value
          (sample series (labels.assign (ascii "le") le) (unsignedText n)) →
        ¬ CarriesLe labels value
          (sample series (labels.assign (ascii "le") other) (unsignedText m))) ↔ le ≠ other := by
    have first := carriesLe_sample labels series le n
    have second := carriesLe_sample labels series other m
    constructor
    · rintro apart rfl
      exact apart le first second
    · intro different value here there
      exact different ((first.unique here).trans (there.unique second))
  have texts : buckets.mergeSort.map numbers.toString ++ [ascii "+Inf"] =
      ((buckets.mergeSort.map fun bound =>
          (numbers.toString bound, UInt64.ofNat (observations.countP (· ≤ bound)))) ++
        [(ascii "+Inf", UInt64.ofNat observations.length)]).map Prod.fst := by
    simp
  rw [LeApart, bucketLines_observed, texts, List.pairwise_map, List.Nodup, List.pairwise_map]
  simp only [each]

end Lines

section Distinct

open MetricsRegistry MetricsUse

variable (stream : ℚ → Bytes) (plain : ∀ v, newline ∉ stream v)

theorem fixedText_ne_inf (v : ℚ) : fixedText v ≠ ascii "+Inf" := by
  intro same
  have dot : point ∈ fixedText v := by simp [fixedText]
  rw [same] at dot
  exact absurd dot (by decide)

/-- The bounds keep their own texts when the rounding keeps them apart. -/
theorem nodup_texts_iff {buckets : List ℚ} (distinct : buckets.Nodup) :
    (buckets.mergeSort.map fixedText ++ [ascii "+Inf"]).Nodup ↔
      ∀ b ∈ buckets, ∀ c ∈ buckets, b ≠ c →
        ¬ ((b < 0 ↔ c < 0) ∧ millionths b = millionths c) := by
  have sorted : buckets.mergeSort.Perm buckets := List.mergeSort_perm _ _
  have apart : ∀ text ∈ buckets.mergeSort.map fixedText, ∀ last ∈ [ascii "+Inf"],
      text ≠ last := by
    intro text member last only same
    obtain ⟨bound, -, rfl⟩ := List.mem_map.mp member
    rw [List.mem_singleton.mp only] at same
    exact fixedText_ne_inf bound same
  rw [List.nodup_append, and_iff_left ⟨List.nodup_singleton _, apart⟩,
    List.nodup_map_iff_inj_on (sorted.nodup_iff.mpr distinct)]
  simp only [sorted.mem_iff, fixedText_eq_iff]
  constructor
  · intro injective b first c second different same
    exact different (injective b first c second same)
  · intro separate b first c second same
    by_contra different
    exact separate b first c second different same

theorem bucket_series_distinct_iff {use after : MetricsUse ℚ} {name help : Bytes}
    {labels : MetricLabels} {buckets : List ℚ} {calls : List (Call ℚ)}
    (distinct : buckets.Nodup) (fresh : use.registry.histograms.get? (key name labels) = none)
    (reached : Transition.run step use (.histogramMetric name help buckets labels :: calls) =
      some after)
    (order : IterationOrder after.registry) :
    ∃ printed,
      (after.registry.histograms.get? (key name labels)).map
        (HistogramEntry.samples (fixedNotation stream plain) (metricName name)) = some printed ∧
      metricText (metricName name) help (ascii "histogram") printed <:+:
        toPrometheusText (fixedNotation stream plain) order ∧
      (bucketLines (metricName name) printed).length = buckets.length + 1 ∧
      (∀ line ∈ bucketLines (metricName name) printed, ∃! le, CarriesLe labels le line) ∧
      (LeApart labels (bucketLines (metricName name) printed) ↔
        ∀ b ∈ buckets, ∀ c ∈ buckets, b ≠ c →
          ¬ ((b < 0 ↔ c < 0) ∧ millionths b = millionths c)) := by
  have entry := created_run fresh reached rfl
  have written := histogram_infix (fixedNotation stream plain) order entry
  rw [metricName_key_eq] at written
  refine ⟨_, congrArg _ entry, written, ?_, ?_, ?_⟩
  · rw [bucketLines_observed]
    simp
  · rw [bucketLines_observed]
    intro line member
    obtain ⟨bucket, -, rfl⟩ := List.mem_map.mp member
    have carries := carriesLe_sample labels (metricName name ++ ascii "_bucket") bucket.1 bucket.2
    exact ⟨bucket.1, carries, fun le other => other.unique carries⟩
  · rw [leApart_observed_iff]
    exact nodup_texts_iff distinct

def quarters : List (Call ℚ) :=
  [.histogramMetric (ascii "ms") (ascii "times") [1 / 2, 1 / 4] { kv := [(ascii "op", ascii "\"")] },
    .observe 0 (1 / 3)]

theorem bucket_series_distinct_quarters : ∃ after printed,
    Transition.run step {} quarters = some after ∧
    metricText (ascii "ms") (ascii "times") (ascii "histogram") printed <:+:
      toPrometheusText (fixedNotation (fun _ => []) fun _ => List.not_mem_nil)
        after.registry.allocated ∧
    (bucketLines (ascii "ms") printed).length = 3 ∧
    LeApart { kv := [(ascii "op", ascii "\"")] } (bucketLines (ascii "ms") printed) := by
  obtain ⟨after, reached⟩ : ∃ after, Transition.run step {} quarters = some after := ⟨_, rfl⟩
  have distinct : ([1 / 2, 1 / 4] : List ℚ).Nodup := by decide +kernel
  obtain ⟨printed, -, written, length, -, apart⟩ :=
    bucket_series_distinct_iff (fun _ => []) (fun _ => List.not_mem_nil) distinct rfl reached
      after.registry.allocated
  exact ⟨after, printed, reached, written, length, apart.mpr (by decide +kernel)⟩

/-- Two bounds below half a millionth. -/
def tooFine : List (Call ℚ) :=
  [.histogramMetric (ascii "h") [] [1 / 10000000, 2 / 10000000] .empty]

theorem bucket_series_collide :
    ([1 / 10000000, 2 / 10000000] : List ℚ).Nodup ∧
    ∃ after printed, Transition.run step {} tooFine = some after ∧
      toPrometheusText (fixedNotation (fun _ => []) fun _ => List.not_mem_nil)
        after.registry.allocated = metricText (ascii "h") [] (ascii "histogram") printed ∧
      ¬ LeApart .empty (bucketLines (ascii "h") printed) := by
  have distinct : ([1 / 10000000, 2 / 10000000] : List ℚ).Nodup := by decide +kernel
  obtain ⟨after, reached, bare, flat, one⟩ : ∃ after,
      Transition.run step {} tooFine = some after ∧ after.registry.counters.nodes = [] ∧
      after.registry.gauges.nodes = [] ∧ after.registry.histograms.nodes.length = 1 :=
    ⟨_, rfl, rfl, rfl, rfl⟩
  have found := created_run rfl reached rfl
  have whole := text_single (fixedNotation (fun _ => []) fun _ => List.not_mem_nil) bare flat one
    found
  rw [metricName_key (by decide)] at whole
  refine ⟨distinct, after, _, reached, whole, ?_⟩
  rw [leApart_observed_iff]
  intro separate
  have rounded := (nodup_texts_iff distinct).mp separate (1 / 10000000) (by simp)
    (2 / 10000000) (by simp) (by decide +kernel)
  exact rounded (by decide +kernel)

end Distinct

end Chmicro
