import Chmicro.IoContextPool
import Chmicro.Transition

set_option autoImplicit false

namespace Chmicro.IoContextPool

open Transition

/-- A call made by the thread that controls the pool. -/
inductive Call where
  | start
  | stop
  deriving DecidableEq, Repr

def step (pool : IoContextPool) : Call → Option IoContextPool
  | .start => some pool.start
  | .stop => some pool.stop

/-- A started pool runs each of its contexts on one live worker, whose `run()` neither finds
its context stopped nor runs out of work. A pool that is not started has no live worker. -/
structure Serving (threads : Nat) (pool : IoContextPool) : Prop where
  size : pool.contexts.length = threads
  up : pool.started = true → ∀ (index : Nat) context, pool.contexts[index]? = some context →
    context.stopped = false ∧ context.guarded = true ∧
      ∃! position : Nat, pool.workers[position]? = some { context := index, live := true }
  down : pool.started = false → ∀ worker ∈ pool.workers, worker.live = false

/-- A call of `Start` that begins to serve finds no context stopped. -/
def StartsFresh (pool : IoContextPool) : Call → Prop
  | .start => pool.started = false → ∀ context ∈ pool.contexts, context.stopped = false
  | .stop => True

instance (pool : IoContextPool) : (call : Call) → Decidable (StartsFresh pool call)
  | .start => inferInstanceAs
      (Decidable (pool.started = false → ∀ context ∈ pool.contexts, context.stopped = false))
  | .stop => isTrue trivial

/-- The contexts are as the constructor made them until the pool is stopped, and all stopped
from then on. -/
structure Steady (threads : Nat) (pool : IoContextPool) : Prop where
  size : pool.contexts.length = threads
  up : pool.started = true →
    (∀ context ∈ pool.contexts, context = {}) ∧ pool.workers = pool.contexts.mapIdx spawn
  down : pool.started = false → pool.workers = [] ∧
    ((∀ context ∈ pool.contexts, context = {}) ∨ ∀ context ∈ pool.contexts, context.stopped = true)

theorem start_of_stopped {pool : IoContextPool} (down : pool.started = false) :
    pool.start =
      { pool with started := true, workers := pool.workers ++ pool.contexts.mapIdx spawn } := by
  simp [start, down]

theorem start_of_started {pool : IoContextPool} (up : pool.started = true) :
    pool.start = pool := by
  simp [start, up]

theorem stop_of_started {pool : IoContextPool} (up : pool.started = true) :
    pool.stop =
      { pool with
        started := false
        contexts := pool.contexts.map fun _ => { stopped := true, guarded := false }
        workers := [] } := by
  simp [stop, up]

theorem stop_of_stopped {pool : IoContextPool} (down : pool.started = false) :
    pool.stop = pool := by
  simp [stop, down]

theorem Steady.serving {threads : Nat} {pool : IoContextPool} (steady : Steady threads pool) :
    Serving threads pool := by
  constructor
  · exact steady.size
  · intro started index context found
    obtain ⟨fresh, workers⟩ := steady.up started
    have made : context = {} := fresh context (List.mem_of_getElem? found)
    subst made
    refine ⟨rfl, rfl, index, ?_, fun position standing => ?_⟩
    · simp only [workers, List.getElem?_mapIdx, found, Option.map_some]
      rfl
    · simp only [workers, List.getElem?_mapIdx] at standing
      obtain ⟨other, -, same⟩ := Option.map_eq_some_iff.mp standing
      exact congrArg Worker.context same
  · intro down worker member
    rw [(steady.down down).1] at member
    cases member

theorem Steady.step {threads : Nat} {pool after : IoContextPool} {call : Call}
    (steady : Steady threads pool) (fresh : StartsFresh pool call)
    (taken : pool.step call = some after) : Steady threads after := by
  cases call with
  | start =>
      cases taken
      cases started : pool.started with
      | true =>
          rw [start_of_started started]
          exact steady
      | false =>
          obtain ⟨none_left, contexts⟩ := steady.down started
          have unstopped := fresh started
          have made : ∀ context ∈ pool.contexts, context = {} := by
            rcases contexts with new | worn
            · exact new
            · intro context member
              have stopped := worn context member
              rw [unstopped context member] at stopped
              cases stopped
          rw [start_of_stopped started]
          refine ⟨steady.size, fun _ => ⟨made, ?_⟩, fun impossible => (by cases impossible)⟩
          rw [none_left, List.nil_append]
  | stop =>
      cases taken
      cases started : pool.started with
      | true =>
          rw [stop_of_started started]
          refine ⟨?_, fun impossible => (by cases impossible), fun _ => ⟨rfl, .inr ?_⟩⟩
          · rw [List.length_map]
            exact steady.size
          · intro context member
            obtain ⟨_, -, rfl⟩ := List.mem_map.mp member
            rfl
      | false =>
          rw [stop_of_stopped started]
          exact steady

/-- A pool of at least one context that is started with its contexts stopped does not serve. -/
theorem Serving.startsFresh {threads : Nat} {pool : IoContextPool} (some_ : 0 < threads)
    (steady : Steady threads pool) (serving : Serving threads pool.start) :
    StartsFresh pool .start := by
  intro down
  rcases (steady.down down).2 with new | worn
  · intro context member
    rw [new context member]
  · have inside : 0 < pool.contexts.length := by rw [steady.size]; exact some_
    have first : pool.start.contexts[0]? = some pool.contexts[0] := by
      rw [start_of_stopped down]
      exact List.getElem?_eq_getElem inside
    have unstopped := (serving.up (start_started pool) 0 _ first).1
    rw [worn _ (List.getElem_mem inside)] at unstopped
    cases unstopped

theorem new_steady {threads : Nat} {pool : IoContextPool} (made : new threads = .ok pool) :
    0 < threads ∧ Steady threads pool := by
  unfold new at made
  split at made
  · cases made
  · rename_i nonzero
    cases made
    refine ⟨Nat.pos_of_ne_zero nonzero, List.length_replicate,
      fun impossible => (by cases impossible),
      fun _ => ⟨rfl, .inl ?_⟩⟩
    intro context member
    exact List.eq_of_mem_replicate member

/-- A pool serves after each of its calls just when it is never started again after it was
stopped. -/
theorem serves_iff_startsFresh (threads : Nat) (pool : IoContextPool)
    (made : new threads = .ok pool) (calls : List Call) :
    Along step (fun _ _ after => Serving threads after) pool calls ↔
      Meets step StartsFresh pool calls := by
  obtain ⟨some_, steady⟩ := new_steady made
  apply along_iff_meets step (Steady threads) _ _ _ _ steady
  · intro before call after steady fresh taken
    exact steady.step fresh taken
  · intro before call steady
    constructor
    · intro serves
      cases call with
      | start => exact (serves _ rfl).startsFresh some_ steady
      | stop => trivial
    · intro fresh after taken
      exact (steady.step fresh taken).serving

theorem serves_iff_startsFresh_two :
    ∃ pool, new 2 = .ok pool ∧
      (Along step (fun _ _ after => Serving 2 after) pool [.start, .stop] ↔
        Meets step StartsFresh pool [.start, .stop]) :=
  ⟨_, rfl, serves_iff_startsFresh 2 _ rfl [.start, .stop]⟩

/-- A pool that is started again has a worker, whose `run()` has returned at once. -/
theorem restarted_pool_is_dead :
    ∃ pool after, new 1 = .ok pool ∧ run step pool [.start, .stop, .start] = some after ∧
      after.started = true ∧ after.workers = [{ context := 0, live := false }] :=
  ⟨_, _, rfl, rfl, rfl, rfl⟩

end Chmicro.IoContextPool
