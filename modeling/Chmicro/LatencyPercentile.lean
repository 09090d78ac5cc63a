import Mathlib
import Chmicro.LatencyHistogram
import Chmicro.ListSet
import Chmicro.OrderStatistic

set_option autoImplicit false

namespace Chmicro.Loadgen

open Truncation OrderStatistic

theorem bucketIndex_lt (latencyUs : UInt64) : bucketIndex latencyUs < kBuckets := by
  unfold bucketIndex kBuckets
  dsimp only
  split
  · decide
  · rename_i inside
    omega

/-- Below the last buckets, the index is the logarithm. -/
theorem bucketIndex_eq {latencyUs : UInt64} (small : latencyUs.toNat < 2 ^ 62) :
    bucketIndex latencyUs = Nat.log2 (latencyUs.toNat + 1) := by
  have next : (latencyUs + 1).toNat = latencyUs.toNat + 1 := by
    rw [UInt64.toNat_add, UInt64.toNat_one]
    omega
  have nonzero : ¬ latencyUs + 1 = 0 := by
    intro zero
    rw [zero] at next
    exact absurd next (by simp)
  have below : Nat.log2 (latencyUs.toNat + 1) < 63 := by
    apply (Nat.log2_lt (by omega)).mpr
    omega
  unfold bucketIndex log2FloorU64 kBuckets
  dsimp only
  rw [if_neg nonzero, next, if_neg (by omega), if_neg (by omega)]
  rfl

namespace LatencyHistogram

section Recorded

/-- The number of latencies that the buckets up to this one hold. -/
def countUpTo (latencies : List Nat) (i : Nat) : Nat :=
  latencies.countP fun latency => Nat.log2 (latency + 1) ≤ i

theorem ok_foldl (histogram : LatencyHistogram) (records : List Record) :
    (records.foldl record histogram).ok =
      histogram.ok + UInt64.ofNat (latencies records).length := by
  induction records generalizing histogram with
  | nil => exact (add_zero histogram.ok).symm
  | cons call rest ih =>
      rw [List.foldl_cons, ih (histogram.record call)]
      cases call with
      | err => rfl
      | ok latencyUs bytesIn =>
          show histogram.ok + 1 + _ = histogram.ok + UInt64.ofNat ((latencies rest).length + 1)
          rw [UInt64.ofNat_add, add_assoc, add_comm 1]
          rfl

/-- Modulo the word, the buckets up to one add up to the latencies that belong there. -/
theorem buckets_foldl (histogram : LatencyHistogram) {records : List Record}
    (small : ∀ latency ∈ latencies records, latency < 2 ^ 62) (i : Nat) :
    ((records.foldl record histogram).buckets.take (i + 1)).sum =
      (histogram.buckets.take (i + 1)).sum + UInt64.ofNat (countUpTo (latencies records) i) := by
  induction records generalizing histogram with
  | nil => exact (add_zero _).symm
  | cons call rest ih =>
      cases call with
      | err => exact ih histogram.recordErr small
      | ok latencyUs bytesIn =>
          have later := ih (histogram.recordOk latencyUs bytesIn) fun latency member =>
            small latency (List.mem_cons_of_mem _ member)
          have here : latencyUs.toNat < 2 ^ 62 := small _ List.mem_cons_self
          have inside : bucketIndex latencyUs < histogram.buckets.length := by
            rw [histogram.sized]
            exact bucketIndex_lt latencyUs
          have split : countUpTo (latencies (.ok latencyUs bytesIn :: rest)) i =
              countUpTo (latencies rest) i +
                if Nat.log2 (latencyUs.toNat + 1) ≤ i then 1 else 0 := by
            show (latencyUs.toNat :: latencies rest).countP _ = _
            simp [countUpTo, List.countP_cons]
          have counted : ((histogram.recordOk latencyUs bytesIn).buckets.take (i + 1)).sum =
              (histogram.buckets.take (i + 1)).sum +
                if bucketIndex latencyUs < i + 1 then 1 else 0 :=
            ListSet.sum_take_modify inside 1 (i + 1)
          show ((rest.foldl record (histogram.recordOk latencyUs bytesIn)).buckets.take
            (i + 1)).sum = _
          rw [later, counted, split, bucketIndex_eq here, UInt64.ofNat_add, add_assoc,
            add_comm (UInt64.ofNat (countUpTo (latencies rest) i))]
          by_cases low : Nat.log2 (latencyUs.toNat + 1) ≤ i
          · rw [if_pos (Nat.lt_succ_of_le low), if_pos low]
            rfl
          · rw [if_neg (by omega), if_neg low]
            rfl

theorem recorded_ok (records : List Record) :
    (recorded records).ok = UInt64.ofNat (latencies records).length := by
  have counted := ok_foldl empty records
  rw [show empty.ok = 0 from rfl, zero_add] at counted
  exact counted

theorem recorded_buckets {records : List Record}
    (small : ∀ latency ∈ latencies records, latency < 2 ^ 62) (i : Nat) :
    ((recorded records).buckets.take (i + 1)).sum =
      UInt64.ofNat (countUpTo (latencies records) i) := by
  have none_ : (empty.buckets.take (i + 1)).sum = 0 := by
    show ((List.replicate kBuckets (0 : UInt64)).take (i + 1)).sum = 0
    rw [List.take_replicate, List.sum_replicate, smul_zero]
  have whole := buckets_foldl empty small i
  rw [none_, zero_add] at whole
  exact whole

end Recorded

section Scan

/-- The scan stops at the first bucket up to which more than the rank is counted. -/
theorem scanBuckets_first {rank : UInt64} {buckets : List UInt64} {i first : Nat} {cum : UInt64}
    (inside : first < buckets.length)
    (before : ∀ k < first, ¬ rank < cum + (buckets.take (k + 1)).sum)
    (here : rank < cum + (buckets.take (first + 1)).sum) :
    scanBuckets rank buckets i cum =
      if i + first ≥ 63 then (1 : UInt64) <<< 63 else (1 : UInt64) <<< UInt64.ofNat (i + first) := by
  induction buckets generalizing i first cum with
  | nil => exact absurd inside (Nat.not_lt_zero first)
  | cons bucket rest ih =>
      cases first with
      | zero =>
          have stops : rank < cum + bucket := by simpa using here
          rw [scanBuckets, if_pos stops]
          rfl
      | succ first =>
          have goes : ¬ rank < cum + bucket := by simpa using before 0 (Nat.succ_pos first)
          have later (k : Nat) : cum + ((bucket :: rest).take (k + 1 + 1)).sum =
              cum + bucket + (rest.take (k + 1)).sum := by
            rw [List.take_succ_cons, List.sum_cons, add_assoc]
          have next : scanBuckets rank rest (i + 1) (cum + bucket) =
              if i + 1 + first ≥ 63 then (1 : UInt64) <<< 63
              else (1 : UInt64) <<< UInt64.ofNat (i + 1 + first) := by
            apply ih
            · simpa using inside
            · intro k below
              rw [← later]
              exact before (k + 1) (by omega)
            · rw [← later]
              exact here
          have place : i + 1 + first = i + (first + 1) := by omega
          rw [place] at next
          rw [scanBuckets, if_neg goes]
          exact next

/-- From the first bucket on, and where the bound is no more than `2^62`. -/
theorem scanBuckets_toNat {rank : UInt64} {buckets : List UInt64} {first : Nat} (low : first < 63)
    (inside : first < buckets.length)
    (reached : ∀ k ≤ first, rank < (buckets.take (k + 1)).sum ↔ first ≤ k) :
    (scanBuckets rank buckets 0 0).toNat = 2 ^ first := by
  have stops : scanBuckets rank buckets 0 0 = (1 : UInt64) <<< UInt64.ofNat first := by
    rw [scanBuckets_first inside, Nat.zero_add, if_neg (by omega)]
    · intro k below
      rw [zero_add, reached k (by omega)]
      omega
    · rw [zero_add]
      exact (reached first le_rfl).mpr le_rfl
  have place : (UInt64.ofNat first).toNat = first := by
    apply UInt64.toNat_ofNat_of_lt'
    show first < 2 ^ 64
    omega
  have shift : first % 64 = first := Nat.mod_eq_of_lt (by omega)
  have fits : 2 ^ first < 2 ^ 64 := Nat.pow_lt_pow_right (by decide) (by omega)
  rw [stops, UInt64.toNat_shiftLeft, place, shift, UInt64.toNat_one, Nat.one_shiftLeft,
    Nat.mod_eq_of_lt fits]

end Scan

/-- The 0-based rank of a percentile, `floor((n - 1) * p)`. -/
def percentileRank (count : Nat) (p : ℚ) : Nat := ⌊((count - 1 : Nat) : ℚ) * p⌋₊

/-- The percentile that the histogram of the calls reports. -/
def reported (records : List Record) (p : ℚ) : Nat :=
  (approxPercentileUs (recorded records).get p).toNat

section Percentile

variable {records : List Record} {p : ℚ}

theorem percentileRank_le {count : Nat} (high : p ≤ 1) :
    percentileRank count p ≤ count - 1 := by
  have shrinks : ((count - 1 : Nat) : ℚ) * p ≤ (count - 1 : Nat) :=
    mul_le_of_le_one_right (Nat.cast_nonneg _) high
  have floors := Nat.floor_le_floor shrinks
  rw [Nat.floor_natCast] at floors
  exact floors

theorem percentileRank_mono {count : Nat} {q : ℚ} (le : p ≤ q) :
    percentileRank count p ≤ percentileRank count q :=
  Nat.floor_le_floor (mul_le_mul_of_nonneg_left le (Nat.cast_nonneg _))

/-- The rank that the code computes is the exact one. -/
theorem rank_toNat {count : Nat} (few : count < 2 ^ 64) (low : 0 ≤ p) (high : p ≤ 1) :
    (UInt64.ofNat (truncate (((count - 1 : Nat) : ℚ) * p)).toNat).toNat =
      percentileRank count p := by
  have nonneg : 0 ≤ ((count - 1 : Nat) : ℚ) * p := mul_nonneg (Nat.cast_nonneg _) low
  have inside : percentileRank count p ≤ count - 1 := percentileRank_le high
  rw [truncate_of_nonneg nonneg, Int.floor_toNat]
  apply UInt64.toNat_ofNat_of_lt'
  show percentileRank count p < 2 ^ 64
  omega

theorem log2_down (k : Nat) (a b : Nat) (le : a ≤ b)
    (inside : decide (Nat.log2 (b + 1) ≤ k) = true) : decide (Nat.log2 (a + 1) ≤ k) = true := by
  have below := (Nat.log2_lt (by omega)).mp (Nat.lt_succ_of_le (of_decide_eq_true inside))
  apply decide_eq_true
  apply Nat.le_of_lt_succ
  apply (Nat.log2_lt (by omega)).mpr
  omega

/-- Below the wrap, the report is the power of two that starts the bucket of the true latency. -/
theorem reported_eq (some_ : 0 < (latencies records).length)
    (small : ∀ latency ∈ latencies records, latency < 2 ^ 62)
    (few : (latencies records).length < 2 ^ 64) (low : 0 ≤ p) (high : p ≤ 1) {latency : Nat}
    (true_ : ranked (latencies records) (percentileRank (latencies records).length p) =
      some latency) :
    reported records p = 2 ^ Nat.log2 (latency + 1) := by
  have counted : (recorded records).get.ok = UInt64.ofNat (latencies records).length :=
    recorded_ok records
  have exact_ : (UInt64.ofNat (latencies records).length).toNat = (latencies records).length :=
    UInt64.toNat_ofNat_of_lt' few
  have nonzero : ¬ (recorded records).get.ok = 0 := by
    intro zero
    rw [← counted, zero] at exact_
    exact absurd exact_ (by simpa using some_.ne)
  have one : ((recorded records).get.ok - 1).toNat = (latencies records).length - 1 := by
    have le : (1 : UInt64) ≤ (recorded records).get.ok := by
      apply UInt64.le_iff_toNat_le.mpr
      rw [counted, exact_]
      exact some_
    rw [UInt64.toNat_sub_of_le _ _ le, counted, exact_]
    rfl
  have bound : Nat.log2 (latency + 1) < 63 := by
    have here := small latency (ranked_mem true_)
    apply (Nat.log2_lt (by omega)).mpr
    omega
  unfold reported approxPercentileUs
  rw [if_neg nonzero, one]
  apply scanBuckets_toNat bound
  · show _ < (recorded records).buckets.length
    rw [(recorded records).sized]
    unfold kBuckets
    omega
  · intro k _
    have within : countUpTo (latencies records) k < 2 ^ 64 :=
      lt_of_le_of_lt List.countP_le_length few
    show _ < ((recorded records).buckets.take (k + 1)).sum ↔ _
    rw [recorded_buckets small, UInt64.lt_iff_toNat_lt, rank_toNat few low high,
      UInt64.toNat_ofNat_of_lt' within]
    have place := ranked_iff true_ (log2_down k)
    rw [decide_eq_true_iff] at place
    exact place.symm

end Percentile

/-- The report bounds the true percentile from above, is at most twice off, and does not decrease
as the percentile grows. -/
def Bounded (records : List Record) (p : ℚ) : Prop :=
  ∃ latency, ranked (latencies records) (percentileRank (latencies records).length p) =
      some latency ∧
    latency ≤ reported records p ∧ reported records p ≤ 2 * (latency + 1) ∧
    ∀ q, p ≤ q → q ≤ 1 → reported records p ≤ reported records q

/-- A latency no higher than the lower end of its bucket. -/
def AtEdge (latency : Nat) : Prop := ∃ i, latency + 1 = 2 ^ i ∨ latency = 2 ^ i

theorem le_bucket_iff (latency : Nat) : latency ≤ 2 ^ Nat.log2 (latency + 1) ↔ AtEdge latency := by
  constructor
  · intro inside
    have below : 2 ^ Nat.log2 (latency + 1) ≤ latency + 1 := Nat.log2_self_le (by omega)
    exact ⟨Nat.log2 (latency + 1), by omega⟩
  · rintro ⟨i, next | here⟩
    · rw [next, Nat.log2_two_pow, ← next]
      omega
    · have least : i ≤ Nat.log2 (latency + 1) := by
        apply (Nat.le_log2 (by omega)).mpr
        omega
      have grows : 2 ^ i ≤ 2 ^ Nat.log2 (latency + 1) := Nat.pow_le_pow_right (by decide) least
      omega

theorem bounded_iff {records : List Record} {p : ℚ} (some_ : latencies records ≠ [])
    (small : ∀ latency ∈ latencies records, latency < 2 ^ 62)
    (few : (latencies records).length < 2 ^ 64) (low : 0 ≤ p) (high : p ≤ 1) :
    Bounded records p ↔ ∀ latency,
      ranked (latencies records) (percentileRank (latencies records).length p) = some latency →
        AtEdge latency := by
  have positive : 0 < (latencies records).length := List.length_pos_iff.mpr some_
  have held {q : ℚ} (most : q ≤ 1) : ∃ latency,
      ranked (latencies records) (percentileRank (latencies records).length q) = some latency := by
    have inside : percentileRank (latencies records).length q ≤ (latencies records).length - 1 :=
      percentileRank_le most
    exact ranked_lt (by omega)
  constructor
  · rintro ⟨other, again, above, -⟩ latency true_
    obtain rfl : other = latency := Option.some.inj (again.symm.trans true_)
    rw [reported_eq positive small few low high again] at above
    exact (le_bucket_iff other).mp above
  · intro edge
    obtain ⟨latency, true_⟩ := held high
    have value := reported_eq positive small few low high true_
    have starts : 2 ^ Nat.log2 (latency + 1) ≤ latency + 1 := Nat.log2_self_le (by omega)
    refine ⟨latency, true_, ?_, ?_, fun q le most => ?_⟩
    · rw [value]
      exact (le_bucket_iff latency).mpr (edge latency true_)
    · omega
    · obtain ⟨later, trueLater⟩ := held most
      rw [value, reported_eq positive small few (le_trans low le) most trueLater]
      have grows := ranked_mono (percentileRank_mono le) true_ trueLater
      apply Nat.pow_le_pow_right (by decide)
      exact of_decide_eq_true (log2_down _ _ _ grows (decide_eq_true le_rfl))

section Wrap

variable {word rest : Nat}

/-- As many short latencies as make a counter wrap, and then longer ones. -/
def wrapped (word rest : Nat) : List Record :=
  List.replicate word (.ok 1 0) ++ List.replicate rest (.ok 15 0)

theorem latencies_wrapped (word rest : Nat) :
    latencies (wrapped word rest) = List.replicate word 1 ++ List.replicate rest 15 := by
  have short : Record.latency? (.ok 1 0) = some 1 := rfl
  have long : Record.latency? (.ok 15 0) = some 15 := rfl
  rw [latencies, wrapped, List.filterMap_append, List.filterMap_replicate_of_some short,
    List.filterMap_replicate_of_some long]

theorem small_wrapped {latency : Nat} (member : latency ∈ latencies (wrapped word rest)) :
    latency = 1 ∨ latency = 15 := by
  rw [latencies_wrapped, List.mem_append] at member
  rcases member with short | long
  · exact .inl (List.eq_of_mem_replicate short)
  · exact .inr (List.eq_of_mem_replicate long)

theorem countUpTo_wrapped (k : Nat) : countUpTo (latencies (wrapped word rest)) k =
    (if 1 ≤ k then word else 0) + if 4 ≤ k then rest else 0 := by
  have short : Nat.log2 (1 + 1) = 1 := by decide
  have long : Nat.log2 (15 + 1) = 4 := by decide
  rw [latencies_wrapped, countUpTo, List.countP_append, List.countP_replicate,
    List.countP_replicate, short, long]
  simp only [decide_eq_true_eq]

/-- The short latencies are lost, and only the longer ones are seen in the buckets. -/
theorem seen_wrapped_iff (whole : UInt64.ofNat word = 0) (seen : UInt64.ofNat (word + rest) ≠ 0)
    (k : Nat) : 0 < ((recorded (wrapped word rest)).buckets.take (k + 1)).sum ↔ 4 ≤ k := by
  have small : ∀ latency ∈ latencies (wrapped word rest), latency < 2 ^ 62 := by
    intro latency member
    rcases small_wrapped member with rfl | rfl
    · decide
    · decide
  rw [recorded_buckets small, countUpTo_wrapped]
  rcases Nat.lt_or_ge k 4 with early | late
  · have none_ : UInt64.ofNat ((if 1 ≤ k then word else 0) + if 4 ≤ k then rest else 0) = 0 := by
      rw [if_neg (Nat.not_le.mpr early), Nat.add_zero]
      split
      · exact whole
      · rfl
    rw [none_]
    exact ⟨fun less => absurd less (by decide), fun large => by omega⟩
  · rw [if_pos (by omega), if_pos late]
    exact ⟨fun _ => late, fun _ => UInt64.pos_iff_ne_zero.mpr seen⟩

theorem reported_wrapped (whole : UInt64.ofNat word = 0) :
    reported (wrapped word rest) 0 = 0 ∨ reported (wrapped word rest) 0 = 16 := by
  have counted : (recorded (wrapped word rest)).get.ok = UInt64.ofNat (word + rest) := by
    have total := recorded_ok (wrapped word rest)
    rw [latencies_wrapped, List.length_append, List.length_replicate, List.length_replicate] at total
    exact total
  unfold reported approxPercentileUs
  by_cases zero : (recorded (wrapped word rest)).get.ok = 0
  · rw [if_pos zero]
    exact .inl rfl
  · have first : UInt64.ofNat (truncate (0 : ℚ)).toNat = 0 := by
      rw [truncate_of_nonneg le_rfl, Int.floor_zero]
      rfl
    rw [if_neg zero, mul_zero, first]
    right
    show (scanBuckets 0 (recorded (wrapped word rest)).buckets 0 0).toNat = 2 ^ 4
    apply scanBuckets_toNat (by decide)
    · rw [(recorded (wrapped word rest)).sized]
      decide
    · intro k _
      exact seen_wrapped_iff whole (counted ▸ zero) k

theorem wrapped_unbounded (some_ : 0 < word) (whole : UInt64.ofNat word = 0) :
    ¬ Bounded (wrapped word rest) 0 := by
  rintro ⟨latency, true_, above, below, -⟩
  have first : percentileRank (latencies (wrapped word rest)).length 0 = 0 := by
    rw [percentileRank, mul_zero, Nat.floor_zero]
  rw [first] at true_
  have short : latency = 1 := by
    have down : ∀ a b : Nat, a ≤ b → decide (b ≤ 1) → decide (a ≤ 1) := by
      intro a b le inside
      exact decide_eq_true (le_trans le (of_decide_eq_true inside))
    have enough : 0 < (latencies (wrapped word rest)).countP (· ≤ 1) := by
      rw [latencies_wrapped, List.countP_append, List.countP_replicate]
      simpa using some_
    have least := of_decide_eq_true ((ranked_iff true_ down).mpr enough)
    rcases small_wrapped (ranked_mem true_) with rfl | rfl
    · rfl
    · omega
  rcases @reported_wrapped word rest whole with none_ | high
  · omega
  · omega

end Wrap

/-- Below `2^64` latencies, the report bounds the true percentile exactly when that is one less
than a power of two, or is one. From `2^64` on, that is not enough for any number of them. -/
theorem percentile_bounded_iff (records : List Record) (p : ℚ) (some_ : latencies records ≠ [])
    (small : ∀ latency ∈ latencies records, latency < 2 ^ 62) (low : 0 ≤ p) (high : p ≤ 1) :
    ((latencies records).length < 2 ^ 64 →
      (Bounded records p ↔ ∀ latency,
        ranked (latencies records) (percentileRank (latencies records).length p) = some latency →
          AtEdge latency)) ∧
    (2 ^ 64 ≤ (latencies records).length →
      ∃ other, (latencies other).length = (latencies records).length ∧
        (∀ latency ∈ latencies other, latency < 2 ^ 62 ∧ AtEdge latency) ∧ ¬ Bounded other 0) := by
  constructor
  · intro few
    exact bounded_iff some_ small few low high
  · intro many
    refine ⟨wrapped (2 ^ 64) ((latencies records).length - 2 ^ 64), ?_, fun latency member => ?_, ?_⟩
    · rw [latencies_wrapped, List.length_append, List.length_replicate, List.length_replicate]
      omega
    · rcases small_wrapped member with rfl | rfl
      · exact ⟨by decide, 1, .inl rfl⟩
      · exact ⟨by decide, 4, .inl rfl⟩
    · exact wrapped_unbounded (by decide) (by decide)

theorem percentile_bounded_seven : Bounded [.ok 7 0] (1 / 2) := by
  have all : ∀ latency ∈ latencies [.ok 7 0], latency = 7 := by decide
  have few : (latencies [.ok 7 0]).length < 2 ^ 64 := by decide
  apply ((percentile_bounded_iff [.ok 7 0] (1 / 2) (by decide) (by decide) (by norm_num)
    (by norm_num)).1 few).mpr
  intro latency true_
  obtain rfl := all latency (ranked_mem true_)
  exact ⟨3, .inl rfl⟩

/-- The bucket of a latency of 6 holds 3 to 6, and is reported by the power of two inside it. -/
theorem percentile_below_six : ¬ Bounded [.ok 6 0] 0 := by
  intro bounded
  have all : ∀ latency ∈ latencies [.ok 6 0], latency = 6 := by decide
  have held := bounded
  obtain ⟨latency, true_, -⟩ := held
  have edge := (bounded_iff (by decide) (by decide) (by decide) le_rfl zero_le_one).mp bounded
    latency true_
  obtain rfl := all latency (ranked_mem true_)
  have above := (le_bucket_iff 6).mpr edge
  exact absurd above (by decide)

end LatencyHistogram

end Chmicro.Loadgen
