import Mathlib.Data.List.Basic

set_option autoImplicit false

namespace Chmicro

/-- One `io_context` of the pool: whether it was stopped, and whether the pool's work
guard still keeps its `run()` from returning. -/
structure IoContext where
  stopped : Bool := false
  guarded : Bool := true
  deriving DecidableEq, Repr

/-- A thread of the pool. It is live while the `run()` of its context has not returned. -/
structure Worker where
  context : Nat
  live : Bool
  deriving DecidableEq, Repr

structure IoContextPool where
  contexts : List IoContext
  workers : List Worker := []
  rr : UInt64 := 0
  started : Bool := false
  deriving DecidableEq, Repr

namespace IoContextPool

def new (threads : Nat) : Except String IoContextPool :=
  if threads = 0 then
    .error "IoContextPool threads must be > 0"
  else
    .ok { contexts := List.replicate threads {} }

/-- The context `Next` picks, and the pool with its cursor advanced. -/
def next (pool : IoContextPool) : Nat × IoContextPool :=
  (pool.rr.toNat % pool.contexts.length, { pool with rr := pool.rr + 1 })

/-- The `run()` of a context that was stopped and not restarted returns at once. -/
def spawn (index : Nat) (context : IoContext) : Worker where
  context := index
  live := !context.stopped

def start (pool : IoContextPool) : IoContextPool :=
  if pool.started then
    pool
  else
    { pool with
      started := true
      workers := pool.workers ++ pool.contexts.mapIdx spawn }

/-- Every worker is joined, which returns once its stopped context has let it go. -/
def stop (pool : IoContextPool) : IoContextPool :=
  if pool.started then
    { pool with
      started := false
      contexts := pool.contexts.map fun _ => { stopped := true, guarded := false }
      workers := [] }
  else
    pool

@[simp] theorem start_started (pool : IoContextPool) : pool.start.started = true := by
  unfold start
  split
  · assumption
  · rfl

@[simp] theorem stop_started (pool : IoContextPool) : pool.stop.started = false := by
  unfold stop
  split
  · rfl
  · simp_all

/-- A pool that is not started has no worker. `Stop` and a new pool leave it so. -/
def Joined (pool : IoContextPool) : Prop :=
  pool.started = false → pool.workers = []

theorem Joined.start (pool : IoContextPool) : Joined pool.start := by
  intro notStarted
  simp at notStarted

theorem Joined.stop {pool : IoContextPool} (joined : Joined pool) : Joined pool.stop := by
  intro _
  unfold IoContextPool.stop
  split
  · rfl
  · rename_i notStarted
    exact joined (by simpa using notStarted)

end IoContextPool

end Chmicro
