import Mathlib
import Chmicro.Truncation

set_option autoImplicit false

namespace Chmicro.Loadgen

open Truncation

def log2FloorU64 (x : UInt64) : Int := if x = 0 then -1 else Nat.log2 x.toNat

def kBuckets : Nat := 64

/-- The counters of the requests, and one bucket for each logarithm of a latency. -/
structure LatencyHistogram where
  ok : UInt64
  err : UInt64
  bytes : UInt64
  buckets : List UInt64
  sized : buckets.length = kBuckets

/-- Bucket by `log2(latency_us + 1)`. -/
def bucketIndex (latencyUs : UInt64) : Nat :=
  let v := latencyUs + 1
  let idx := log2FloorU64 v
  let idx := if idx < 0 then 0 else idx
  let idx := if idx ≥ kBuckets then (kBuckets : Int) - 1 else idx
  idx.toNat

structure Snapshot where
  ok : UInt64 := 0
  err : UInt64 := 0
  bytes : UInt64 := 0
  buckets : List UInt64

namespace LatencyHistogram

/-- After `Reset`, and when it is made. -/
def empty : LatencyHistogram where
  ok := 0
  err := 0
  bytes := 0
  buckets := List.replicate kBuckets 0
  sized := List.length_replicate

def recordOk (histogram : LatencyHistogram) (latencyUs bytesIn : UInt64) : LatencyHistogram where
  ok := histogram.ok + 1
  err := histogram.err
  bytes := histogram.bytes + bytesIn
  buckets := histogram.buckets.modify (bucketIndex latencyUs) (· + 1)
  sized := by
    rw [List.length_modify]
    exact histogram.sized

def recordErr (histogram : LatencyHistogram) : LatencyHistogram :=
  { histogram with err := histogram.err + 1 }

def get (histogram : LatencyHistogram) : Snapshot where
  ok := histogram.ok
  err := histogram.err
  bytes := histogram.bytes
  buckets := histogram.buckets

/-- The scan from bucket `i` on, with `cum` counted before it. -/
def scanBuckets (rank : UInt64) : List UInt64 → Nat → UInt64 → UInt64
  | [], _, _ => (1 : UInt64) <<< UInt64.ofNat (kBuckets - 1)
  | bucket :: rest, i, cum =>
      let cum := cum + bucket
      if cum > rank then
        -- Approx upper bound of this bucket: 2^i us
        if i ≥ 63 then (1 : UInt64) <<< 63 else (1 : UInt64) <<< UInt64.ofNat i
      else scanBuckets rank rest (i + 1) cum

/-- The source has `p` as a double and the product as a long double. Here both are exact. -/
def approxPercentileUs (s : Snapshot) (p : ℚ) : UInt64 :=
  if s.ok = 0 then 0
  else
    let rank := UInt64.ofNat (truncate (((s.ok - 1).toNat : ℚ) * p)).toNat
    scanBuckets rank s.buckets 0 0

end LatencyHistogram

/-- One call that records a request. -/
inductive Record where
  | ok (latencyUs bytesIn : UInt64)
  | err
  deriving DecidableEq

def Record.latency? : Record → Option Nat
  | ok latencyUs _ => some latencyUs.toNat
  | err => none

namespace LatencyHistogram

def record (histogram : LatencyHistogram) : Record → LatencyHistogram
  | .ok latencyUs bytesIn => histogram.recordOk latencyUs bytesIn
  | .err => histogram.recordErr

/-- A histogram after the calls, in their order. -/
def recorded (records : List Record) : LatencyHistogram := records.foldl record empty

end LatencyHistogram

/-- The latencies that the calls record. -/
def latencies (records : List Record) : List Nat := records.filterMap Record.latency?

end Chmicro.Loadgen
