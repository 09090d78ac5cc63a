import Mathlib
import Chmicro.Metrics
import Chmicro.Status

set_option autoImplicit false

namespace Chmicro

section Residues

variable {n j : Nat}

theorem count_range' (start k : Nat) (small : j < n) :
    ((List.range' start k).map (· % n)).count j =
      Nat.count (fun i => start + i ≡ j [MOD n]) k := by
  have residue (i : Nat) : (start + i) % n = j ↔ start + i ≡ j [MOD n] := by
    rw [Nat.ModEq, Nat.mod_eq_of_lt small]
  rw [List.count, List.countP_map, List.range'_eq_map_range, List.countP_map, Nat.count]
  apply List.countP_congr
  intro i _
  simp only [Function.comp_apply, beq_iff_eq, decide_eq_true_eq, residue]

theorem ceil_div (k : Nat) (positive : 0 < n) :
    (k + n - 1) / n = k / n + if 0 < k % n then 1 else 0 := by
  have last : (n - 1) / n = 0 ∧ (n - 1) % n = n - 1 :=
    ⟨Nat.div_eq_of_lt (by omega), Nat.mod_eq_of_lt (by omega)⟩
  have split := @Nat.add_div k (n - 1) n positive
  rw [last.1, last.2] at split
  rw [Nat.add_sub_assoc positive, split]
  split_ifs <;> omega

/-- Consecutive numbers share out the residues as evenly as can be. -/
theorem count_residue (start k : Nat) (small : j < n) :
    ((List.range' start k).map (· % n)).count j = k / n ∨
      ((List.range' start k).map (· % n)).count j = (k + n - 1) / n := by
  have positive : 0 < n := by omega
  have startRest := Nat.mod_lt start positive
  have lengthRest := Nat.mod_lt k positive
  have whole := Nat.count_add (· ≡ j [MOD n]) start k
  rw [Nat.count_modEq_card _ positive, Nat.count_modEq_card _ positive, Nat.add_div positive,
    Nat.add_mod_eq_ite, Nat.mod_eq_of_lt small] at whole
  rw [count_range' start k small, ceil_div k positive]
  split_ifs at whole ⊢ <;> omega

end Residues

structure Endpoint where
  host : Bytes
  port : UInt16 := 0
  deriving DecidableEq

/-- Its cursors, one per service, are of the width of `std::size_t`. -/
structure RoundRobinLoadBalancer (w : Nat) where
  rr : NodeMap Bytes (BitVec w) := .empty

namespace RoundRobinLoadBalancer

variable {w : Nat}

/-- A cursor that is not in the map begins at zero. -/
def cur (balancer : RoundRobinLoadBalancer w) (service : Bytes) : BitVec w :=
  (balancer.rr.get? service).getD 0

def idx (balancer : RoundRobinLoadBalancer w) (service : Bytes) (endpoints : List Endpoint) :
    Nat :=
  (balancer.cur service).toNat % endpoints.length

theorem idx_lt (balancer : RoundRobinLoadBalancer w) (service : Bytes) {endpoints : List Endpoint}
    (some_ : endpoints ≠ []) : balancer.idx service endpoints < endpoints.length :=
  Nat.mod_lt _ (List.length_pos_iff.mpr some_)

def pick (balancer : RoundRobinLoadBalancer w) (service : Bytes) (endpoints : List Endpoint) :
    Result Endpoint × RoundRobinLoadBalancer w :=
  if empty : endpoints = [] then
    (.error { code := .unavailable, message := "no endpoints" }, balancer)
  else
    (.ok (endpoints.get ⟨balancer.idx service endpoints, balancer.idx_lt service empty⟩),
      { rr := balancer.rr.assign service (balancer.cur service + 1) })

section Runs

structure Call where
  service : Bytes
  endpoints : List Endpoint
  deriving DecidableEq

/-- A call that chooses an endpoint for the service. -/
def Call.Picks (call : Call) (service : Bytes) : Prop :=
  call.service = service ∧ call.endpoints ≠ []

instance (call : Call) (service : Bytes) : Decidable (call.Picks service) :=
  inferInstanceAs (Decidable (_ ∧ _))

/-- The number of them. -/
def picksOf (service : Bytes) (calls : List Call) : Nat := calls.countP (·.Picks service)

theorem picksOf_append (service : Bytes) (calls more : List Call) :
    picksOf service (calls ++ more) = picksOf service calls + picksOf service more :=
  List.countP_append

theorem picksOf_cons (service : Bytes) (call : Call) (rest : List Call) :
    picksOf service (call :: rest) =
      picksOf service rest + if call.Picks service then 1 else 0 := by
  simp only [picksOf, List.countP_cons, decide_eq_true_eq]

def next (balancer : RoundRobinLoadBalancer w) (call : Call) : RoundRobinLoadBalancer w :=
  (balancer.pick call.service call.endpoints).2

def run (balancer : RoundRobinLoadBalancer w) (calls : List Call) : RoundRobinLoadBalancer w :=
  calls.foldl next balancer

/-- The positions that the calls choose for the service, in order. -/
def positions (service : Bytes) : RoundRobinLoadBalancer w → List Call → List Nat
  | _, [] => []
  | balancer, call :: rest =>
      if call.Picks service then
        balancer.idx service call.endpoints :: positions service (balancer.next call) rest
      else positions service (balancer.next call) rest

variable (balancer : RoundRobinLoadBalancer w) (service : Bytes)

theorem pick_empty :
    balancer.pick service [] = (.error { code := .unavailable, message := "no endpoints" },
      balancer) := rfl

theorem pick_some {endpoints : List Endpoint} (some_ : endpoints ≠ []) :
    ∃ endpoint, (balancer.pick service endpoints).1 = .ok endpoint ∧
      endpoints[balancer.idx service endpoints]? = some endpoint := by
  rw [pick, dif_neg some_]
  exact ⟨_, rfl, List.getElem?_eq_getElem (balancer.idx_lt service some_)⟩

/-- Only the service's own picks move its cursor. -/
theorem next_cur (call : Call) :
    (balancer.next call).cur service =
      if call.Picks service then balancer.cur service + 1 else balancer.cur service := by
  unfold next pick
  by_cases empty : call.endpoints = []
  · have idle : ¬ call.Picks service := fun picks => picks.2 empty
    rw [dif_pos empty, if_neg idle]
  · rw [dif_neg empty]
    by_cases same : call.service = service
    · have picks : call.Picks service := ⟨same, empty⟩
      rw [if_pos picks]
      subst same
      show ((balancer.rr.assign _ _).get? call.service).getD 0 = _
      rw [NodeMap.get?_assign_self, Option.getD_some]
    · have idle : ¬ call.Picks service := fun picks => same picks.1
      rw [if_neg idle]
      show ((balancer.rr.assign _ _).get? service).getD 0 = _
      rw [NodeMap.get?_assign_ne _ same, cur]

theorem run_cur (calls : List Call) :
    (balancer.run calls).cur service =
      balancer.cur service + BitVec.ofNat w (picksOf service calls) := by
  induction calls generalizing balancer with
  | nil => exact (BitVec.add_zero _).symm
  | cons call rest ih =>
      have later := ih (balancer.next call)
      rw [next_cur] at later
      rw [run, List.foldl_cons]
      rw [run] at later
      rw [later, picksOf_cons]
      by_cases picks : call.Picks service
      · rw [if_pos picks, if_pos picks, BitVec.ofNat_add, BitVec.add_assoc]
        exact congrArg _ (BitVec.add_comm _ _)
      · rw [if_neg picks, if_neg picks, Nat.add_zero]

theorem positions_cons (call : Call) (rest : List Call) :
    positions service balancer (call :: rest) =
      if call.Picks service then
        balancer.idx service call.endpoints :: positions service (balancer.next call) rest
      else positions service (balancer.next call) rest := rfl

/-- The other calls change nothing. -/
theorem positions_filter (calls : List Call) (other : RoundRobinLoadBalancer w)
    (same : balancer.cur service = other.cur service) :
    positions service balancer calls = positions service other (calls.filter (·.Picks service)) := by
  induction calls generalizing balancer other with
  | nil => rfl
  | cons call rest ih =>
      rw [positions_cons, List.filter_cons]
      by_cases picks : call.Picks service
      · have moved : (balancer.next call).cur service = (other.next call).cur service := by
          rw [next_cur, next_cur, same]
        rw [if_pos picks, if_pos (decide_eq_true picks), positions_cons, if_pos picks,
          ih _ _ moved, idx, idx, same]
      · have kept : (balancer.next call).cur service = other.cur service := by
          rw [next_cur, if_neg picks, same]
        rw [if_neg picks, if_neg (by simpa using picks)]
        exact ih _ _ kept

/-- While the cursor does not wrap, it counts the picks. -/
theorem positions_range' (n start : Nat) (window : List Call)
    (cursor : balancer.cur service = BitVec.ofNat w start)
    (bounded : start + picksOf service window ≤ 2 ^ w)
    (sized : ∀ call ∈ window, call.Picks service → call.endpoints.length = n) :
    positions service balancer window =
      (List.range' start (picksOf service window)).map (· % n) := by
  induction window generalizing balancer start with
  | nil => rfl
  | cons call rest ih =>
      have later : ∀ call ∈ rest, call.Picks service → call.endpoints.length = n :=
        fun call member => sized call (List.mem_cons_of_mem _ member)
      rw [positions_cons]
      by_cases picks : call.Picks service
      · rw [picksOf_cons, if_pos picks] at bounded
        have moved : (balancer.next call).cur service = BitVec.ofNat w (start + 1) := by
          rw [next_cur, if_pos picks, cursor, BitVec.ofNat_add]
          rfl
        have unwrapped : start % 2 ^ w = start := Nat.mod_eq_of_lt (by omega)
        have chosen : balancer.idx service call.endpoints = start % n := by
          rw [idx, cursor, BitVec.toNat_ofNat, unwrapped, sized call List.mem_cons_self picks]
        rw [if_pos picks, chosen, picksOf_cons, if_pos picks, List.range'_succ, List.map_cons,
          ih _ (start + 1) moved (by omega) later]
      · rw [picksOf_cons, if_neg picks, Nat.add_zero] at bounded
        have kept : (balancer.next call).cur service = BitVec.ofNat w start := by
          rw [next_cur, if_neg picks, cursor]
        rw [if_neg picks, picksOf_cons, if_neg picks, Nat.add_zero]
        exact ih _ start kept bounded later

theorem positions_inside {n start k : Nat} {left picked right : List Nat}
    (whole : (List.range' start k).map (· % n) = left ++ picked ++ right) :
    picked = (List.range' (start + left.length) picked.length).map (· % n) := by
  obtain ⟨front, back, split, frontEq, backEq⟩ := List.map_eq_append_iff.mp whole
  obtain ⟨leftRange, pickedRange, again, leftEq, pickedEq⟩ := List.map_eq_append_iff.mp frontEq
  obtain ⟨inside, -, frontRange, -⟩ := List.range'_eq_append_iff.mp split
  rw [frontRange] at again
  obtain ⟨place, _, leftIs, pickedIs⟩ := List.range'_eq_append_iff.mp again
  have leftLength : left.length = place := by
    rw [← leftEq, leftIs, List.length_map, List.length_range']
  have pickedLength : picked.length = inside - place := by
    rw [← pickedEq, pickedIs, List.length_map, List.length_range']
  rw [leftLength, pickedLength, ← pickedEq, pickedIs]
  simp

end Runs

section Fairness

variable (service : Bytes)

theorem round_robin_fair (calls : List Call)
    (fewer : picksOf service calls < 2 ^ w) :
    (∀ balancer : RoundRobinLoadBalancer w, balancer.pick service [] =
      (.error { code := .unavailable, message := "no endpoints" }, balancer)) ∧
    (∀ (balancer : RoundRobinLoadBalancer w) endpoints, endpoints ≠ [] →
      ∃ endpoint, (balancer.pick service endpoints).1 = .ok endpoint ∧
        endpoints[balancer.idx service endpoints]? = some endpoint) ∧
    positions service ({} : RoundRobinLoadBalancer w) calls =
      positions service ({} : RoundRobinLoadBalancer w) (calls.filter (·.Picks service)) ∧
    ∀ before window after : List Call, calls = before ++ window ++ after →
      ∀ n, (∀ call ∈ window, call.Picks service → call.endpoints.length = n) →
        ∀ left picked right,
          positions service (run ({} : RoundRobinLoadBalancer w) before) window =
            left ++ picked ++ right →
          ∀ j < n, picked.count j = picked.length / n ∨
            picked.count j = (picked.length + n - 1) / n := by
  constructor
  · intro balancer
    exact balancer.pick_empty service
  constructor
  · intro balancer endpoints some_
    exact balancer.pick_some service some_
  constructor
  · exact positions_filter {} service calls {} rfl
  intro before window after split n sized left picked right chosen j small
  have cursor : (run ({} : RoundRobinLoadBalancer w) before).cur service =
      BitVec.ofNat w (picksOf service before) := by
    rw [run_cur]
    exact BitVec.zero_add _
  have bounded : picksOf service before + picksOf service window ≤ 2 ^ w := by
    rw [split, picksOf_append, picksOf_append] at fewer
    omega
  have counted := positions_range' _ service n _ window cursor bounded sized
  rw [chosen] at counted
  rw [positions_inside counted.symm]
  rw [List.length_map, List.length_range']
  exact count_residue _ _ small

/-- Three picks of two entries, with an empty list and another service in between. -/
def alternating : List Call :=
  let first : Endpoint := { host := ascii "a", port := 1 }
  let second : Endpoint := { host := ascii "b", port := 2 }
  [⟨ascii "kv", [first, second]⟩, ⟨ascii "kv", []⟩, ⟨ascii "other", [second]⟩,
    ⟨ascii "kv", [first, second]⟩, ⟨ascii "kv", [first, second]⟩]

theorem round_robin_fair_alternating :
    positions (ascii "kv") ({} : RoundRobinLoadBalancer 64) alternating = [0, 1, 0] ∧
    ([0, 1, 0].count 1 = 3 / 2 ∨ [0, 1, 0].count 1 = (3 + 2 - 1) / 2) := by
  have chosen : positions (ascii "kv") ({} : RoundRobinLoadBalancer 64) alternating = [0, 1, 0] := by
    decide +kernel
  have fair := @round_robin_fair 64 (ascii "kv") alternating (by decide +kernel)
  have counts := fair.2.2.2 [] alternating [] rfl 2 (by decide +kernel) [] [0, 1, 0] [] chosen
  exact ⟨chosen, counts 1 (by decide)⟩

end Fairness

end RoundRobinLoadBalancer

end Chmicro
