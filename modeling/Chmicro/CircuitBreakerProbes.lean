import Chmicro.CircuitBreakerCounts

set_option autoImplicit false

namespace Chmicro.Resilience.Clients

open Transition

/-- A success of an earlier request that gives back a slot a probe still holds. -/
def StealsSlot (clients : Clients) : ClientCall → Prop
  | .success id =>
      clients.breaker.state = .halfOpen ∧ 0 < clients.breaker.halfOpenInflight ∧
        clients.breaker.consecutiveSuccesses + 1 <
          clients.breaker.opts.consecutiveSuccessesToClose ∧
        ∃ request ∈ clients.requests[id]?, request.episode ≠ clients.episode
  | _ => False

instance (clients : Clients) : (call : ClientCall) → Decidable (StealsSlot clients call)
  | .request _ | .failure _ _ => isFalse id
  | .success id => inferInstanceAs (Decidable (
      clients.breaker.state = .halfOpen ∧ 0 < clients.breaker.halfOpenInflight ∧
        clients.breaker.consecutiveSuccesses + 1 <
          clients.breaker.opts.consecutiveSuccessesToClose ∧
        ∃ request ∈ clients.requests[id]?, request.episode ≠ clients.episode))

/-- Every probe that has not reported holds a slot. -/
structure Held (clients : Clients) : Prop where
  tagged : Tagged clients
  slots : clients.breaker.state = .halfOpen →
    clients.outstanding ≤ clients.breaker.halfOpenInflight.toNat ∧
      clients.breaker.halfOpenInflight ≤ clients.breaker.opts.halfOpenMaxInflight

theorem fresh_held (opts : CircuitBreakerOptions) : Held (fresh opts) where
  tagged := fresh_tagged opts
  slots := fun half => by cases half

theorem Held.step {clients next : Clients} {call : ClientCall} (held : Held clients)
    (fair : ¬ StealsSlot clients call) (taken : clients.step call = some next) : Held next := by
  refine ⟨held.tagged.step taken, fun half => ?_⟩
  cases step_halfOpen taken half with
  | refuses now before full => exact held.slots before
  | enters now opened =>
      rw [outstanding_enters held.tagged]
      exact ⟨Nat.le_refl 1, UInt32.lt_iff_toNat_lt.mp clients.breaker.opts.inflight_pos⟩
  | admits now before room =>
      obtain ⟨enough, -⟩ := held.slots before
      have more := CircuitBreaker.toNat_succ_of_lt room
      have below := UInt32.lt_iff_toNat_lt.mp room
      rw [History.outstanding_concat, UInt32.le_iff_toNat_le]
      dsimp only
      omega
  | counts id episode before few awaited =>
      obtain ⟨enough, limit⟩ := held.slots before
      have reported := History.outstanding_report awaited ⟨.success, clients.episode⟩
      have released := CircuitBreaker.releaseSlot_inflight clients.breaker
      have bound := UInt32.le_iff_toNat_le.mp limit
      refine ⟨?_, ?_⟩
      · dsimp only
        rw [released]
        by_cases taken : 0 < clients.breaker.halfOpenInflight
        · have own : episode = clients.episode := by
            by_contra stale
            exact fair ⟨before, taken, few, ⟨episode, none⟩, awaited, stale⟩
          rw [if_pos own] at reported
          omega
        · have free : ¬ 0 < clients.breaker.halfOpenInflight.toNat :=
            fun positive => taken (UInt32.lt_iff_toNat_lt.mpr positive)
          omega
      · change clients.breaker.releaseSlot.halfOpenInflight ≤ _
        rw [CircuitBreaker.releaseSlot_opts, UInt32.le_iff_toNat_le, released]
        omega

/-- No run without a stolen slot has more probes in flight than the options allow. -/
theorem probe_limit (opts : CircuitBreakerOptions) (calls : List ClientCall) (clients : Clients)
    (reached : run step (fresh opts) calls = some clients)
    (fair : Meets step (fun clients call => ¬ StealsSlot clients call) (fresh opts) calls)
    (half : clients.breaker.state = .halfOpen) :
    clients.outstanding ≤ opts.clamp.halfOpenMaxInflight.toNat := by
  have held : Held clients :=
    invariant step (fun clients call => ¬ StealsSlot clients call) Held
      (fun _ _ _ before fair taken => before.step fair taken) (fresh_held opts) fair reached
  obtain ⟨enough, limit⟩ := held.slots half
  rw [run_opts reached] at limit
  exact Nat.le_trans enough (UInt32.le_iff_toNat_le.mp limit)

theorem probe_limit_of_first_probe :
    ∃ clients, run step (fresh eagerOptions) [.request 0, .failure 0 0, .request 0] =
        some clients ∧ clients.outstanding ≤ eagerOptions.clamp.halfOpenMaxInflight.toNat :=
  ⟨_, rfl, probe_limit eagerOptions [.request 0, .failure 0 0, .request 0] _ rfl
    (by decide) rfl⟩

/-- Two requests are admitted while closed. The second one fails, and the next request
becomes a probe while the first one is still under way. -/
def slowCaller : List ClientCall := [.request 0, .request 0, .failure 1 0, .request 0]

/-- The slow caller's success frees the slot of the only probe and lets a second one in. -/
theorem slow_success_admits_second_probe :
    ∃ clients, run step (fresh eagerOptions) (slowCaller ++ [.success 0, .request 0]) =
        some clients ∧ clients.breaker.state = .halfOpen ∧
      eagerOptions.clamp.halfOpenMaxInflight.toNat < clients.outstanding :=
  ⟨_, rfl, rfl, by decide⟩

end Chmicro.Resilience.Clients
