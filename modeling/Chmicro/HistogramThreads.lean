import Mathlib
import Chmicro.CommutingThreads
import Chmicro.LatencyHistogram

set_option autoImplicit false

namespace Chmicro.Loadgen

/-- An atomic addition to one of the counters. -/
inductive Increment where
  | ok
  | err
  | bytes (count : UInt64)
  | bucket (index : Nat)
  deriving DecidableEq, Repr

/-- What a call on the histogram does, one atomic operation after the other. -/
def Record.increments : Record → List Increment
  | .ok latencyUs bytesIn => [.ok, .bytes bytesIn, .bucket (bucketIndex latencyUs)]
  | .err => [.err]

namespace LatencyHistogram

open CommutingThreads

def increment (histogram : LatencyHistogram) : Increment → LatencyHistogram
  | .ok => { histogram with ok := histogram.ok + 1 }
  | .err => { histogram with err := histogram.err + 1 }
  | .bytes count => { histogram with bytes := histogram.bytes + count }
  | .bucket index =>
      { histogram with
        buckets := histogram.buckets.modify index (· + 1)
        sized := by
          rw [List.length_modify]
          exact histogram.sized }

theorem modify_comm (buckets : List UInt64) (first second : Nat) :
    (buckets.modify first (· + 1)).modify second (· + 1) =
      (buckets.modify second (· + 1)).modify first (· + 1) := by
  apply List.ext_getElem?
  intro index
  simp only [List.getElem?_modify, Option.map_eq_map]
  cases buckets[index]? with
  | none => rfl
  | some count =>
      simp only [Option.map_some]
      split_ifs <;> rfl

theorem increment_comm (histogram : LatencyHistogram) (first second : Increment) :
    (histogram.increment first).increment second =
      (histogram.increment second).increment first := by
  cases first with
  | bucket index =>
      cases second with
      | bucket other =>
          simp only [increment, modify_comm histogram.buckets index other]
      | _ => rfl
  | bytes count =>
      cases second with
      | bytes other => simp only [increment, add_right_comm]
      | _ => rfl
  | ok => cases second <;> rfl
  | err => cases second <;> rfl

instance : RightCommutative increment := ⟨increment_comm⟩

/-- A call on its own is the call of the sequential histogram. -/
theorem perform_record : perform increment Record.increments = record := by
  funext histogram call
  cases call <;> rfl

/-- Threads that record. A call is many atomic operations, and they interleave. -/
abbrev RecordingThreads := Threads LatencyHistogram Increment

/-- In every interleaving, the histogram with what the calls under way have still to add is what
the calls make one after the other. Once they have returned the histogram is just that, in
whatever order they are taken, and with it each percentile that is reported. -/
theorem recorded_in_any_order (actions : List (Action Record)) (threads : RecordingThreads)
    (reached : Transition.run (step increment Record.increments) { state := empty } actions =
      some threads) :
    settled increment threads = recorded (begun actions) ∧
    ((∀ left ∈ threads.calls, left = []) → ∀ records, records.Perm (begun actions) →
      threads.state = recorded records) := by
  have whole : settled increment threads = recorded (begun actions) := by
    rw [settled_run increment Record.increments reached, perform_record]
    rfl
  refine ⟨whole, fun finished records same => ?_⟩
  rw [← settled_finished increment finished, whole, recorded, recorded, ← perform_record]
  exact perform_perm increment Record.increments same.symm empty

/-- Two requests that are recorded at the same time. -/
def overlapping : List (Action Record) :=
  [.begin (.ok 7 120), .begin (.ok 900 80), .step 1, .step 0, .step 0, .step 1, .step 1, .step 0]

theorem recorded_in_any_order_overlapping : ∃ threads,
    Transition.run (step increment Record.increments) { state := empty } overlapping =
        some threads ∧
      threads.state = recorded [.ok 900 80, .ok 7 120] := by
  refine ⟨_, rfl, ?_⟩
  exact (recorded_in_any_order overlapping _ rfl).2 (by decide) [.ok 900 80, .ok 7 120]
    (.swap _ _ _)

end LatencyHistogram

end Chmicro.Loadgen
