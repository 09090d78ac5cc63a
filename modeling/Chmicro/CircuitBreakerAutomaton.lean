import Chmicro.CircuitBreaker

set_option autoImplicit false

namespace Chmicro.Resilience

/-- A call with the clock reading it takes, when it takes one. -/
inductive Call where
  | allowRequest (now : Int)
  | onSuccess
  | onFailure (now : Int)
  deriving DecidableEq, Repr

def CircuitBreaker.call (breaker : CircuitBreaker) : Call → CircuitBreaker
  | .allowRequest now => (breaker.allowRequest now).2
  | .onSuccess => breaker.onSuccess
  | .onFailure now => breaker.onFailure now

/-- Failures since the last success. The newest call comes first. -/
def failuresInARow : List Call → Nat
  | [] => 0
  | .allowRequest _ :: earlier => failuresInARow earlier
  | .onSuccess :: _ => 0
  | .onFailure _ :: earlier => failuresInARow earlier + 1

def successes : List Call → Nat
  | [] => 0
  | .onSuccess :: earlier => successes earlier + 1
  | .allowRequest _ :: earlier => successes earlier
  | .onFailure _ :: earlier => successes earlier

/-- The reference automaton. It keeps no counter, only the calls received since
its state was entered, the newest first, and the time of the opening failure. -/
structure Episode where
  state : CircuitState := .closed
  openedAt : Int := 0
  calls : List Call := []

namespace Episode

def record (episode : Episode) (call : Call) : Episode :=
  { episode with calls := call :: episode.calls }

def next (opts : ClampedOptions) (episode : Episode) (call : Call) : Episode :=
  match episode.state, call with
  | .closed, .onFailure now =>
      if failuresInARow (call :: episode.calls) = opts.consecutiveFailuresToOpen.toNat then
        { state := .open, openedAt := now }
      else
        episode.record call
  | .open, .allowRequest now =>
      if episode.openedAt + opts.openNanos ≤ now then
        { state := .halfOpen }
      else
        episode.record call
  | .halfOpen, .onFailure now => { state := .open, openedAt := now }
  | .halfOpen, .onSuccess =>
      if successes (call :: episode.calls) = opts.consecutiveSuccessesToClose.toNat then
        { state := .closed }
      else
        episode.record call
  | _, _ => episode.record call

end Episode

/-- Each counter the breaker reads in a state is a count over the calls of that state.
The counters that are stale there are left out. -/
structure Follows (opts : ClampedOptions) (breaker : CircuitBreaker) (episode : Episode) :
    Prop where
  opts_eq : breaker.opts = opts
  state_eq : breaker.state = episode.state
  closed : episode.state = .closed →
    breaker.consecutiveFailures.toNat = failuresInARow episode.calls ∧
      breaker.consecutiveFailures < opts.consecutiveFailuresToOpen
  opened : episode.state = .open → breaker.openedAt = episode.openedAt
  halfOpen : episode.state = .halfOpen →
    breaker.consecutiveSuccesses.toNat = successes episode.calls ∧
      breaker.consecutiveSuccesses < opts.consecutiveSuccessesToClose

namespace Follows

variable {breaker : CircuitBreaker} {episode : Episode}

/-- A breaker that has just closed follows an episode without calls. -/
theorem enter_closed {opts : ClampedOptions} (opts_eq : breaker.opts = opts)
    (state : breaker.state = .closed) (zero : breaker.consecutiveFailures = 0) :
    Follows opts breaker { state := .closed } where
  opts_eq := opts_eq
  state_eq := state
  closed := fun _ => by
    rw [zero]
    exact ⟨rfl, opts.failures_pos⟩
  opened := fun impossible => by cases impossible
  halfOpen := fun impossible => by cases impossible

theorem enter_open {opts : ClampedOptions} (opts_eq : breaker.opts = opts)
    (state : breaker.state = .open) :
    Follows opts breaker { state := .open, openedAt := breaker.openedAt } where
  opts_eq := opts_eq
  state_eq := state
  closed := fun impossible => by cases impossible
  opened := fun _ => rfl
  halfOpen := fun impossible => by cases impossible

theorem enter_halfOpen {opts : ClampedOptions} (opts_eq : breaker.opts = opts)
    (state : breaker.state = .halfOpen) (zero : breaker.consecutiveSuccesses = 0) :
    Follows opts breaker { state := .halfOpen } where
  opts_eq := opts_eq
  state_eq := state
  closed := fun impossible => by cases impossible
  opened := fun impossible => by cases impossible
  halfOpen := fun _ => by
    rw [zero]
    exact ⟨rfl, opts.successes_pos⟩

theorem call_closed (follows : Follows breaker.opts breaker episode)
    (closed : episode.state = .closed) (call : Call) :
    Follows breaker.opts (breaker.call call) (episode.next breaker.opts call) := by
  have state := follows.state_eq.trans closed
  obtain ⟨count, below⟩ := follows.closed closed
  cases call with
  | allowRequest now =>
      simp only [CircuitBreaker.call, CircuitBreaker.allowRequest_closed state, Episode.next, closed]
      exact ⟨rfl, follows.state_eq, fun _ => ⟨count, below⟩,
        fun opened => by simp [Episode.record, closed] at opened,
        fun half => by simp [Episode.record, closed] at half⟩
  | onSuccess =>
      simp only [CircuitBreaker.call, CircuitBreaker.onSuccess_closed state, Episode.next, closed]
      exact ⟨rfl, follows.state_eq, fun _ => ⟨rfl, breaker.opts.failures_pos⟩,
        fun opened => by simp [Episode.record, closed] at opened,
        fun half => by simp [Episode.record, closed] at half⟩
  | onFailure now =>
      have reaches := CircuitBreaker.le_succ_iff_of_lt below
      simp only [CircuitBreaker.call, Episode.next, closed, failuresInARow, ← count, ← reaches]
      split
      · rename_i enough
        rw [CircuitBreaker.onFailure_opens state enough]
        exact enter_open rfl rfl
      · rename_i few
        rw [CircuitBreaker.onFailure_counts state few]
        refine ⟨rfl, follows.state_eq, fun _ => ⟨?_, CircuitBreaker.succ_lt_of_not_le few⟩,
          fun opened => by simp [Episode.record, closed] at opened,
          fun half => by simp [Episode.record, closed] at half⟩
        exact (CircuitBreaker.toNat_succ_of_lt below).trans (by rw [count]; rfl)

theorem call_open (follows : Follows breaker.opts breaker episode)
    (opened : episode.state = .open) (call : Call) :
    Follows breaker.opts (breaker.call call) (episode.next breaker.opts call) := by
  have state := follows.state_eq.trans opened
  have since := follows.opened opened
  -- A call without effect lengthens the episode and leaves the breaker as it is.
  have ignored : Follows breaker.opts breaker (episode.record call) :=
    ⟨rfl, follows.state_eq, fun closed => by simp [Episode.record, opened] at closed,
      fun _ => since, fun half => by simp [Episode.record, opened] at half⟩
  cases call with
  | allowRequest now =>
      simp only [CircuitBreaker.call, Episode.next, opened]
      split
      · rename_i due
        have passed : ¬ now - breaker.openedAt < breaker.opts.openNanos := by omega
        rw [CircuitBreaker.allowRequest_probes state passed]
        exact enter_halfOpen rfl rfl rfl
      · rename_i early
        have waits : now - breaker.openedAt < breaker.opts.openNanos := by omega
        rw [CircuitBreaker.allowRequest_waits state waits]
        exact ignored
  | onSuccess =>
      simpa only [CircuitBreaker.call, CircuitBreaker.onSuccess_open state, Episode.next, opened]
        using ignored
  | onFailure now =>
      simpa only [CircuitBreaker.call, CircuitBreaker.onFailure_open state, Episode.next, opened]
        using ignored

theorem call_halfOpen (follows : Follows breaker.opts breaker episode)
    (half : episode.state = .halfOpen) (call : Call) :
    Follows breaker.opts (breaker.call call) (episode.next breaker.opts call) := by
  have state := follows.state_eq.trans half
  obtain ⟨count, below⟩ := follows.halfOpen half
  cases call with
  | allowRequest now =>
      simp only [CircuitBreaker.call, Episode.next, half]
      by_cases full : breaker.opts.halfOpenMaxInflight ≤ breaker.halfOpenInflight
      · rw [CircuitBreaker.allowRequest_full state full]
        exact ⟨rfl, follows.state_eq, fun closed => by simp [Episode.record, half] at closed,
          fun opened => by simp [Episode.record, half] at opened, fun _ => ⟨count, below⟩⟩
      · rw [CircuitBreaker.allowRequest_admits state full]
        exact ⟨rfl, follows.state_eq, fun closed => by simp [Episode.record, half] at closed,
          fun opened => by simp [Episode.record, half] at opened, fun _ => ⟨count, below⟩⟩
  | onSuccess =>
      have reaches := CircuitBreaker.le_succ_iff_of_lt below
      simp only [CircuitBreaker.call, Episode.next, half, successes, ← count, ← reaches]
      split
      · rename_i enough
        rw [CircuitBreaker.onSuccess_closes state enough]
        exact enter_closed rfl rfl rfl
      · rename_i few
        rw [CircuitBreaker.onSuccess_counts state few]
        refine ⟨CircuitBreaker.releaseSlot_opts _,
          (CircuitBreaker.releaseSlot_state _).trans follows.state_eq,
          fun closed => by simp [Episode.record, half] at closed,
          fun opened => by simp [Episode.record, half] at opened,
          fun _ => ⟨?_, CircuitBreaker.succ_lt_of_not_le few⟩⟩
        exact (CircuitBreaker.toNat_succ_of_lt below).trans (by rw [count]; rfl)
  | onFailure now =>
      simp only [CircuitBreaker.call, CircuitBreaker.onFailure_reopens state, Episode.next, half]
      exact enter_open rfl rfl

/-- One call keeps the breaker in step with the automaton, in every state. -/
theorem call (follows : Follows breaker.opts breaker episode) (call : Call) :
    Follows breaker.opts (breaker.call call) (episode.next breaker.opts call) := by
  cases state : episode.state with
  | closed => exact follows.call_closed state call
  | «open» => exact follows.call_open state call
  | halfOpen => exact follows.call_halfOpen state call

theorem calls (follows : Follows breaker.opts breaker episode) (history : List Call) :
    Follows breaker.opts (history.foldl CircuitBreaker.call breaker)
      (history.foldl (Episode.next breaker.opts) episode) := by
  induction history generalizing breaker episode with
  | nil => exact follows
  | cons call rest ih =>
      have stepped := follows.call call
      have rebased : Follows (breaker.call call).opts (breaker.call call)
          (episode.next breaker.opts call) := stepped.opts_eq.symm ▸ stepped
      simpa only [List.foldl_cons, stepped.opts_eq] using ih rebased

end Follows

theorem new_follows (opts : CircuitBreakerOptions) :
    Follows (CircuitBreaker.new opts).opts (CircuitBreaker.new opts) {} :=
  Follows.enter_closed rfl rfl rfl

/-- The state is the automaton's after every history. The clock readings need not be in order. -/
theorem state_follows_history (opts : CircuitBreakerOptions) (history : List Call) :
    (history.foldl CircuitBreaker.call (CircuitBreaker.new opts)).state =
      (history.foldl (Episode.next opts.clamp) {}).state :=
  ((new_follows opts).calls history).state_eq

end Chmicro.Resilience
