import Chmicro.LoadBalancer

set_option autoImplicit false

namespace Chmicro

structure InMemoryServiceDiscovery where
  table : NodeMap Bytes (List Endpoint) := .empty

namespace InMemoryServiceDiscovery

def set (discovery : InMemoryServiceDiscovery) (service : Bytes) (endpoints : List Endpoint) :
    InMemoryServiceDiscovery where
  table := discovery.table.assign service endpoints

def resolve (discovery : InMemoryServiceDiscovery) (service : Bytes) : Result (List Endpoint) :=
  match discovery.table.get? service with
  | none => .error { code := .notFound, message := "service not found" }
  | some endpoints => .ok endpoints

end InMemoryServiceDiscovery

/-- A client of both: it resolves a service, and picks one of what it finds. -/
structure Governance (w : Nat) where
  discovery : InMemoryServiceDiscovery := {}
  balancer : RoundRobinLoadBalancer w := {}

namespace Governance

variable {w : Nat}

inductive Call where
  | set (service : Bytes) (endpoints : List Endpoint)
  | route (service : Bytes)
  deriving DecidableEq

def route (governance : Governance w) (service : Bytes) : Result Endpoint × Governance w :=
  match governance.discovery.resolve service with
  | .error status => (.error status, governance)
  | .ok endpoints =>
      let (endpoint, balancer) := governance.balancer.pick service endpoints
      (endpoint, { governance with balancer })

def next (governance : Governance w) : Call → Governance w
  | .set service endpoints =>
      { governance with discovery := governance.discovery.set service endpoints }
  | .route service => (governance.route service).2

def run (governance : Governance w) (calls : List Call) : Governance w :=
  calls.foldl next governance

/-- What the routes of the service come to, in order. -/
def answers (service : Bytes) : Governance w → List Call → List (Result Endpoint)
  | _, [] => []
  | governance, call :: rest =>
      if call = .route service then
        (governance.route service).1 :: answers service (governance.next call) rest
      else answers service (governance.next call) rest

/-- The number of routes that came to an endpoint. -/
def given (service : Bytes) (governance : Governance w) (calls : List Call) : Nat :=
  (answers service governance calls).countP Except.isOk

def routesTo (service : Bytes) (calls : List Call) : Nat := calls.count (.route service)

/-- The endpoints of the service after one more call. -/
def changed (service : Bytes) (found : Option (List Endpoint)) : Call → Option (List Endpoint)
  | .set other endpoints => if other = service then some endpoints else found
  | .route _ => found

/-- The endpoints that the last call for the service has set. -/
def lastSet (service : Bytes) (calls : List Call) : Option (List Endpoint) :=
  calls.foldl (changed service) none

def missing : Result Endpoint := .error { code := .notFound, message := "service not found" }

def noEndpoints : Result Endpoint := .error { code := .unavailable, message := "no endpoints" }

/-- The endpoint whose turn it is. -/
def inTurn (endpoints : List Endpoint) (turn : Nat) : Result Endpoint :=
  match endpoints[turn % endpoints.length]? with
  | some endpoint => .ok endpoint
  | none => noEndpoints

/-- How the client stands to a service: what it would find, and how often it has picked. -/
structure Facing (governance : Governance w) (service : Bytes) (found : Option (List Endpoint))
    (turn : Nat) : Prop where
  found : governance.discovery.table.get? service = found
  turn : governance.balancer.cur service = BitVec.ofNat w turn

variable {governance : Governance w} {service : Bytes} {found : Option (List Endpoint)} {turn : Nat}

theorem route_missing (facing : Facing governance service none turn) :
    governance.route service = (missing, governance) := by
  rw [route, InMemoryServiceDiscovery.resolve, facing.found]
  rfl

theorem route_found {endpoints : List Endpoint}
    (facing : Facing governance service (some endpoints) turn) :
    governance.route service = ((governance.balancer.pick service endpoints).1,
      { governance with balancer := governance.balancer.next ⟨service, endpoints⟩ }) := by
  rw [route, InMemoryServiceDiscovery.resolve, facing.found]
  rfl

/-- While the cursor does not wrap, each endpoint is given in its turn. -/
theorem route_turn {endpoints : List Endpoint}
    (facing : Facing governance service (some endpoints) turn) (unwrapped : turn < 2 ^ w) :
    (governance.route service).1 = inTurn endpoints turn := by
  rw [route_found facing, inTurn]
  by_cases empty : endpoints = []
  · subst empty
    rfl
  · obtain ⟨endpoint, picked, here⟩ := governance.balancer.pick_some service empty
    have idx : governance.balancer.idx service endpoints = turn % endpoints.length := by
      rw [RoundRobinLoadBalancer.idx, facing.turn, BitVec.toNat_ofNat, Nat.mod_eq_of_lt unwrapped]
    rw [idx] at here
    rw [picked, here]

/-- A route comes to an endpoint when there is one. -/
theorem route_isOk {endpoints : List Endpoint}
    (facing : Facing governance service (some endpoints) turn) :
    (governance.route service).1.isOk = decide (endpoints ≠ []) := by
  rw [route_found facing]
  by_cases empty : endpoints = []
  · subst empty
    rfl
  · obtain ⟨endpoint, picked, -⟩ := governance.balancer.pick_some service empty
    rw [picked, decide_eq_true empty]
    rfl

theorem Facing.after_set (facing : Facing governance service found turn) (other : Bytes)
    (endpoints : List Endpoint) :
    Facing (governance.next (.set other endpoints)) service
      (changed service found (.set other endpoints)) turn := by
  refine ⟨?_, facing.turn⟩
  show (governance.discovery.table.assign other endpoints).get? service = _
  rw [changed]
  split
  · rename_i same
    rw [same, NodeMap.get?_assign_self]
  · rename_i different
    rw [NodeMap.get?_assign_ne _ different, facing.found]

theorem Facing.after_route (facing : Facing governance service found turn) (other : Bytes) :
    Facing (governance.next (.route other)) service found
      (turn + if other = service ∧ (governance.route service).1.isOk then 1 else 0) := by
  have own : Facing governance other (governance.discovery.table.get? other)
      (governance.balancer.cur other).toNat := ⟨rfl, by simp⟩
  cases resolved : governance.discovery.table.get? other with
  | none =>
      rw [resolved] at own
      have idle : ¬ (other = service ∧ (governance.route service).1.isOk) := by
        rintro ⟨same, ok⟩
        rw [← same, route_missing own] at ok
        cases ok
      rw [if_neg idle, Governance.next, route_missing own]
      exact facing
  | some endpoints =>
      rw [resolved] at own
      have moved := governance.balancer.next_cur service ⟨other, endpoints⟩
      have picks : (⟨other, endpoints⟩ : RoundRobinLoadBalancer.Call).Picks service ↔
          other = service ∧ (governance.route service).1.isOk := by
        refine and_congr_right fun same => ?_
        rw [← same, route_isOk own, decide_eq_true_iff]
      rw [Governance.next, route_found own]
      refine ⟨facing.found, ?_⟩
      by_cases picked : (⟨other, endpoints⟩ : RoundRobinLoadBalancer.Call).Picks service
      · rw [if_pos picked, facing.turn] at moved
        rw [if_pos (picks.mp picked), moved, BitVec.ofNat_add]
        rfl
      · rw [if_neg picked, facing.turn] at moved
        rw [if_neg (picks.not.mp picked), moved, Nat.add_zero]

/-- Calls for other services change nothing for this one. -/
theorem Facing.next (facing : Facing governance service found turn) (call : Call) :
    Facing (governance.next call) service (changed service found call)
      (turn + if call = .route service ∧ (governance.route service).1.isOk then 1 else 0) := by
  cases call with
  | set other endpoints =>
      rw [if_neg (by simp), Nat.add_zero]
      exact facing.after_set other endpoints
  | route other =>
      simp only [Call.route.injEq]
      exact facing.after_route other

theorem given_cons (call : Call) (rest : List Call) : given service governance (call :: rest) =
    (if call = .route service ∧ (governance.route service).1.isOk then 1 else 0) +
      given service (governance.next call) rest := by
  rw [given, answers]
  by_cases routed : call = .route service
  · rw [if_pos routed, List.countP_cons, Nat.add_comm]
    simp only [routed, true_and]
    rfl
  · rw [if_neg routed, if_neg fun both => routed both.1, Nat.zero_add]
    rfl

theorem Facing.run (facing : Facing governance service found turn) (calls : List Call) :
    Facing (governance.run calls) service (calls.foldl (changed service) found)
      (turn + given service governance calls) := by
  induction calls generalizing governance found turn with
  | nil => exact facing
  | cons call rest ih =>
      rw [given_cons, ← Nat.add_assoc]
      exact ih (facing.next call)

theorem start_facing : Facing ({} : Governance w) service none 0 := ⟨rfl, rfl⟩

theorem routesTo_cons (call : Call) (rest : List Call) :
    routesTo service (call :: rest) =
      routesTo service rest + if call = .route service then 1 else 0 := by
  rw [routesTo, List.count_cons, routesTo]
  simp only [beq_iff_eq]

section Window

variable {window : List Call} (stays : ∀ endpoints, .set service endpoints ∉ window)

include stays

theorem changed_stays {call : Call} {rest : List Call} (here : window = call :: rest) :
    changed service found call = found ∧ ∀ endpoints, .set service endpoints ∉ rest := by
  subst here
  refine ⟨?_, fun endpoints member => stays endpoints (List.mem_cons_of_mem _ member)⟩
  cases call with
  | route other => rfl
  | set other endpoints =>
      rw [changed, if_neg]
      rintro rfl
      exact stays endpoints List.mem_cons_self

/-- Without an endpoint every route is refused alike. -/
theorem answers_refused {refusal : Result Endpoint}
    (refused : ∀ (governance : Governance w) turn, Facing governance service found turn →
      (governance.route service).1 = refusal)
    (facing : Facing governance service found turn) :
    answers service governance window = List.replicate (routesTo service window) refusal := by
  induction window generalizing governance turn with
  | nil => rfl
  | cons call rest ih =>
      obtain ⟨same, stays⟩ := @changed_stays service found _ stays call rest rfl
      have after := facing.next call
      rw [same] at after
      rw [answers, ih stays after, routesTo_cons]
      by_cases routed : call = .route service
      · rw [if_pos routed, if_pos routed, refused governance turn facing, List.replicate_succ]
      · rw [if_neg routed, if_neg routed, Nat.add_zero]

theorem answers_in_turn {endpoints : List Endpoint} (some_ : endpoints ≠ [])
    (facing : Facing governance service (some endpoints) turn)
    (unwrapped : turn + routesTo service window ≤ 2 ^ w) :
    answers service governance window =
      (List.range' turn (routesTo service window)).map (inTurn endpoints) := by
  induction window generalizing governance turn with
  | nil => rfl
  | cons call rest ih =>
      obtain ⟨same, stays⟩ := @changed_stays service (some endpoints) _ stays call rest rfl
      have after := facing.next call
      rw [same, route_isOk facing, decide_eq_true some_] at after
      rw [routesTo_cons] at unwrapped ⊢
      rw [answers]
      by_cases routed : call = .route service
      · rw [if_pos routed] at unwrapped ⊢
        rw [if_pos ⟨routed, rfl⟩] at after
        rw [if_pos routed, route_turn facing (by omega), ih stays after (by omega),
          List.range'_succ, List.map_cons]
      · rw [if_neg routed, Nat.add_zero] at unwrapped
        rw [if_neg fun both => routed both.1, Nat.add_zero] at after
        rw [if_neg routed, if_neg routed, Nat.add_zero, ih stays after unwrapped]

end Window

/-- The routes of a service are refused until its endpoints are set, and from then on come to
the endpoints that were set last in turn, from the turn that the routes before have reached. What
is set and routed for other services in between does not show. -/
theorem routes_in_turn (service : Bytes) (calls window : List Call)
    (stays : ∀ endpoints, .set service endpoints ∉ window)
    (unwrapped : given service ({} : Governance w) calls + routesTo service window ≤ 2 ^ w) :
    answers service (run ({} : Governance w) calls) window =
      match lastSet service calls with
      | none => List.replicate (routesTo service window) missing
      | some endpoints => (List.range' (given service ({} : Governance w) calls)
          (routesTo service window)).map (inTurn endpoints) := by
  have facing := (@start_facing w service).run calls
  rw [Nat.zero_add] at facing
  rw [lastSet]
  generalize calls.foldl (changed service) none = found at facing ⊢
  cases found with
  | none =>
      exact answers_refused stays (fun _ _ facing => by rw [route_missing facing]) facing
  | some endpoints =>
      by_cases empty : endpoints = []
      · subst empty
        have none_ : inTurn [] = fun _ => noEndpoints := rfl
        dsimp only
        rw [none_, List.map_const', List.length_range']
        refine answers_refused stays (fun _ _ facing => ?_) facing
        rw [route_found facing]
        rfl
      · exact answers_in_turn stays empty facing unwrapped

/-- Two endpoints take turns while another service is set up, and one of them is replaced. -/
def replaced : List Call :=
  let first : Endpoint := { host := ascii "a", port := 1 }
  let second : Endpoint := { host := ascii "b", port := 2 }
  [.route (ascii "kv"), .set (ascii "kv") [first, second], .route (ascii "kv"),
    .set (ascii "kv") [second, second, first]]

theorem routes_in_turn_replaced :
    answers (ascii "kv") (run ({} : Governance 64) replaced)
        [.route (ascii "kv"), .set (ascii "hello") [], .route (ascii "hello"), .route (ascii "kv")] =
      [.ok { host := ascii "b", port := 2 }, .ok { host := ascii "a", port := 1 }] := by
  have stays : ∀ endpoints, Call.set (ascii "kv") endpoints ∉ [.route (ascii "kv"),
      .set (ascii "hello") [], .route (ascii "hello"), .route (ascii "kv")] := by
    have other : ascii "kv" ≠ ascii "hello" := by decide +kernel
    simp [other]
  rw [routes_in_turn (ascii "kv") replaced _ stays (by decide +kernel)]
  decide +kernel

end Governance

end Chmicro
