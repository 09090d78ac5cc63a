import Chmicro.Router

set_option autoImplicit false

namespace Chmicro.Http.Router

open NextChain

variable {Rest World : Type}

section Perform

variable {run : Nat → State World → Option (Outcome World)}

/-- A middleware comes to its end when the calls it makes do. Its entries are added to those
made before. -/
theorem perform_total {low high : Nat}
    (total : ∀ idx state, low ≤ idx → idx ≤ high →
      ∃ out, run idx state = some out ∧ idx ≤ out.idx ∧ out.idx ≤ high)
    (behaviour : Behaviour (State World)) (idx : Nat) (trace : List Entry) (above : low ≤ idx)
    (below : idx ≤ high) :
    ∃ out more, perform run idx trace behaviour = some out ∧ idx ≤ out.idx ∧ out.idx ≤ high ∧
      out.trace = trace ++ more := by
  induction behaviour generalizing idx trace with
  | ret state => exact ⟨_, [], rfl, Nat.le_refl _, below, (List.append_nil _).symm⟩
  | next state resume ih =>
      obtain ⟨out, entered, later, bounded⟩ := total idx state above below
      obtain ⟨final, more, performed, last, limit, traced⟩ :=
        ih out.state out.idx (trace ++ out.trace) (Nat.le_trans above later) bounded
      exact ⟨final, out.trace ++ more, (perform_next entered).trans performed,
        Nat.le_trans later last, limit, by rw [traced, List.append_assoc]⟩

/-- What holds of the entries of every call holds of the entries of the middleware. -/
theorem perform_forall {holds : Entry → Prop}
    (calls : ∀ idx state out, run idx state = some out → ∀ entry ∈ out.trace, holds entry)
    (behaviour : Behaviour (State World)) {idx : Nat} {trace : List Entry} {final : Outcome World}
    (before : ∀ entry ∈ trace, holds entry)
    (performed : perform run idx trace behaviour = some final) :
    ∀ entry ∈ final.trace, holds entry := by
  induction behaviour generalizing idx trace with
  | ret state =>
      cases performed
      exact before
  | next state resume ih =>
      obtain ⟨out, entered, rest⟩ := Option.bind_eq_some_iff.mp performed
      refine ih out.state (fun entry member => ?_) rest
      rcases List.mem_append.mp member with old | new
      · exact before entry old
      · exact calls idx state out entered entry new

/-- Once the index has passed the last middleware, every call runs the handler. -/
theorem perform_last {count : Nat} {handler : State World → State World} {within : List Nat}
    (entered : ∀ state, run count state = some ⟨count, handler state, [⟨.handler, within⟩]⟩)
    (behaviour : Behaviour (State World)) (trace : List Entry) :
    ∃ more, perform run count trace behaviour =
        some ⟨count, behaviour.around handler, trace ++ more⟩ ∧
      ∀ entry ∈ more, entry = ⟨.handler, within⟩ := by
  induction behaviour generalizing trace with
  | ret state => exact ⟨[], by rw [perform_ret, List.append_nil, Behaviour.around], by simp⟩
  | next state resume ih =>
      obtain ⟨more, performed, same⟩ := ih (handler state) (trace ++ [⟨.handler, within⟩])
      refine ⟨⟨.handler, within⟩ :: more, ?_, List.forall_mem_cons.mpr ⟨rfl, same⟩⟩
      rw [perform_next (entered state), performed, Behaviour.around, List.append_assoc,
        List.singleton_append]

end Perform

variable (middleware : List (Middleware Rest World)) (handler : Handler Rest World)
  (req : Request Rest)

/-- What `run` enters at an index. -/
def stageAt (idx : Nat) : Stage :=
  if idx < middleware.length then .middle idx else .handler

theorem run_total (fuel : Nat) (within : List Nat) (idx : Nat) (state : State World)
    (inside : idx ≤ middleware.length) (enough : middleware.length < fuel + idx) :
    ∃ out more, run middleware handler req fuel within idx state = some out ∧
      idx ≤ out.idx ∧ out.idx ≤ middleware.length ∧
      (idx < middleware.length → idx < out.idx) ∧
      out.trace = ⟨stageAt middleware idx, within⟩ :: more := by
  induction fuel generalizing within idx state with
  | zero => omega
  | succ fuel ih =>
      cases found : middleware[idx]? with
      | none =>
          have all := List.getElem?_eq_none_iff.mp found
          refine ⟨_, [], run_handler middleware handler req all fuel within state, Nat.le_refl _,
            inside, fun below => (Nat.not_lt_of_le all below).elim, ?_⟩
          rw [stageAt, if_neg (Nat.not_lt_of_le all)]
      | some mw =>
          obtain ⟨below, -⟩ := List.getElem?_eq_some_iff.mp found
          have deeper : ∀ later state, idx + 1 ≤ later → later ≤ middleware.length →
              ∃ out, run middleware handler req fuel (idx :: within) later state = some out ∧
                later ≤ out.idx ∧ out.idx ≤ middleware.length := by
            intro later state above bounded
            obtain ⟨out, _, entered, moved, limit, -, -⟩ :=
              ih (idx :: within) later state bounded (by omega)
            exact ⟨out, entered, moved, limit⟩
          obtain ⟨out, more, performed, moved, limit, traced⟩ := perform_total deeper
            (mw req state) (idx + 1) [⟨.middle idx, within⟩] (Nat.le_refl _) below
          refine ⟨out, more, ?_, Nat.le_of_succ_le moved, limit, fun _ => moved, ?_⟩
          · rw [run_middle middleware handler req found, performed]
          · rw [traced, stageAt, if_pos below, List.singleton_append]

/-- `run` at an index, as `perform` calls it. -/
theorem run_bounded {fuel low : Nat} {within : List Nat} (enough : middleware.length < fuel + low)
    (idx : Nat) (state : State World) (above : low ≤ idx) (inside : idx ≤ middleware.length) :
    ∃ out, run middleware handler req fuel within idx state = some out ∧ idx ≤ out.idx ∧
      out.idx ≤ middleware.length := by
  obtain ⟨out, _, entered, moved, limit, -, -⟩ :=
    run_total middleware handler req fuel within idx state inside (by omega)
  exact ⟨out, entered, moved, limit⟩

/-- A call made when the stage `skipped` lies behind enters a later stage from outside it. -/
theorem perform_gated (fuel : Nat) {idx skipped : Nat} {within : List Nat}
    (inside : idx ≤ middleware.length) (enough : middleware.length < fuel + idx)
    (behind : skipped < idx) (gate : skipped < middleware.length) (outside : skipped ∉ within)
    (trace : List Entry) (behaviour : Behaviour (State World)) :
    ∃ out more, perform (run middleware handler req fuel within) idx trace behaviour = some out ∧
      out.trace = trace ++ more ∧
      (Gated middleware.length more ↔ behaviour.returned = true) ∧
      ∀ final, behaviour = .ret final → out.state = final := by
  cases behaviour with
  | ret state =>
      refine ⟨_, [], perform_ret .., (List.append_nil _).symm, ?_, fun final same => ?_⟩
      · exact iff_of_true (fun _ impossible => (by cases impossible)) rfl
      · cases same
        rfl
  | next state resume =>
      obtain ⟨out, more, entered, moved, limit, -, traced⟩ :=
        run_total middleware handler req fuel within idx state inside enough
      obtain ⟨final, rest, performed, -, -, ending⟩ :=
        perform_total (run_bounded middleware handler req enough) (resume out.state) out.idx
          (trace ++ out.trace) moved limit
      refine ⟨final, out.trace ++ rest, (perform_next entered).trans performed,
        by rw [ending, List.append_assoc], ?_, fun _ impossible => (by cases impossible)⟩
      refine iff_of_false (fun gated => outside ?_) (by simp [Behaviour.returned])
      refine gated ⟨stageAt middleware idx, within⟩ (by simp [traced]) skipped gate ?_
      unfold stageAt
      split
      · simpa [Stage.after] using behind
      · rfl

/-- Every stage that an entry is within has called. -/
theorem run_within (fuel : Nat) (within : List Nat) (idx : Nat) (state : State World)
    (out : Outcome World)
    (ran : run middleware handler req fuel within idx state = some out) :
    ∀ entry ∈ out.trace, ∀ index ∈ entry.within, index ∈ within ∨
      ∃ mw, middleware[index]? = some mw ∧ ∃ state, (mw req state).returned = false := by
  induction fuel generalizing within idx state out with
  | zero => cases ran
  | succ fuel ih =>
      cases found : middleware[idx]? with
      | none =>
          rw [run_handler middleware handler req (List.getElem?_eq_none_iff.mp found)] at ran
          cases ran
          intro entry member index listed
          rw [List.mem_singleton.mp member] at listed
          exact .inl listed
      | some mw =>
          rw [run_middle middleware handler req found] at ran
          have first : ∀ entry ∈ [Entry.mk (.middle idx) within], ∀ index ∈ entry.within,
              index ∈ within ∨ ∃ mw, middleware[index]? = some mw ∧
                ∃ state, (mw req state).returned = false := by
            intro entry member index listed
            rw [List.mem_singleton.mp member] at listed
            exact .inl listed
          cases behaves : mw req state with
          | ret final =>
              rw [behaves, perform_ret] at ran
              cases ran
              exact first
          | next given resume =>
              refine perform_forall (fun later given out entered entry member index listed => ?_)
                (mw req state) first ran
              rcases ih (idx :: within) later given out entered entry member index listed with
                inner | calls
              · rcases List.mem_cons.mp inner with rfl | outer
                · exact .inr ⟨mw, found, state, by rw [behaves]; rfl⟩
                · exact .inl outer
              · exact .inr calls

/-- The stages from an index on, for the request. -/
def stagesFrom (idx : Nat) : List (State World → Behaviour (State World)) :=
  (middleware.drop idx).map fun mw => mw req

theorem stagesFrom_all {idx : Nat} (all : middleware.length ≤ idx) :
    stagesFrom middleware req idx = [] := by
  rw [stagesFrom, List.drop_eq_nil_of_le all, List.map_nil]

theorem stagesFrom_cons {idx : Nat} {mw : Middleware Rest World}
    (found : middleware[idx]? = some mw) :
    stagesFrom middleware req idx = mw req :: stagesFrom middleware req (idx + 1) := by
  obtain ⟨below, here⟩ := List.getElem?_eq_some_iff.mp found
  rw [stagesFrom, List.drop_eq_getElem_cons below, here, List.map_cons, stagesFrom]

/-- What `run` leaves when it starts at an index. The middlewares are gates just when all of
them but the last call at most once, and then the state is that of their composition. -/
structure Faithful (idx : Nat) (state : State World) (out : Outcome World) : Prop where
  gates : Gated middleware.length out.trace ↔
    onceEach (handler req) (stagesFrom middleware req idx) state = true
  composed : Gated middleware.length out.trace →
    out.state = compose (handler req) (stagesFrom middleware req idx) state

/-- The stages listed are those before the index. -/
def Chain (idx : Nat) (within : List Nat) : Prop := ∀ index, index ∈ within ↔ index < idx

theorem Chain.next {idx : Nat} {within : List Nat} (chain : Chain idx within) :
    Chain (idx + 1) (idx :: within) := by
  intro index
  rw [List.mem_cons, chain, Nat.lt_succ_iff_lt_or_eq, or_comm]

theorem Chain.gated_middle {idx : Nat} {within : List Nat} (chain : Chain idx within)
    (count : Nat) : Gated count [⟨.middle idx, within⟩] := by
  intro entry member index _ after
  rw [List.mem_singleton.mp member] at after ⊢
  exact (chain index).mpr (by simpa [Stage.after] using after)

theorem Chain.gated_handler {idx count : Nat} {within : List Nat} (chain : Chain idx within)
    (all : count ≤ idx) {trace : List Entry} (handled : ∀ entry ∈ trace, entry = ⟨.handler, within⟩) :
    Gated count trace := by
  intro entry member index below _
  rw [handled entry member]
  exact (chain index).mpr (Nat.lt_of_lt_of_le below all)

theorem faithful_handler {idx : Nat} {within : List Nat} (chain : Chain idx within)
    (all : middleware.length ≤ idx) (state : State World) :
    Faithful middleware handler req idx state ⟨idx, handler req state, [⟨.handler, within⟩]⟩ := by
  have gated : Gated middleware.length [⟨.handler, within⟩] :=
    chain.gated_handler all (by simp)
  have stages := stagesFrom_all middleware req all
  constructor
  · rw [stages]
    exact iff_of_true gated rfl
  · intro _
    rw [stages, compose]

/-- Whatever the last middleware calls is the handler, however often. -/
theorem faithful_last {fuel idx : Nat} {within : List Nat} {mw : Middleware Rest World}
    (chain : Chain idx within) (found : middleware[idx]? = some mw)
    (last : idx + 1 = middleware.length) (state : State World) :
    ∃ out, run middleware handler req (fuel + 2) within idx state = some out ∧
      Faithful middleware handler req idx state out := by
  have all : middleware.length ≤ idx + 1 := Nat.le_of_eq last.symm
  obtain ⟨more, performed, handled⟩ := perform_last
    (fun state => run_handler middleware handler req all fuel (idx :: within) state)
    (mw req state) [⟨.middle idx, within⟩]
  have gated : Gated middleware.length ([⟨.middle idx, within⟩] ++ more) :=
    gated_append.mpr ⟨chain.gated_middle _, chain.next.gated_handler all handled⟩
  have stages : stagesFrom middleware req idx = [mw req] := by
    rw [stagesFrom_cons middleware req found, stagesFrom_all middleware req all]
  refine ⟨_, (run_middle middleware handler req found within state).trans performed, ?_, ?_⟩
  · rw [stages]
    exact iff_of_true gated rfl
  · intro _
    rw [stages, compose]
    rfl

theorem faithful_ret {idx : Nat} {within : List Nat} {mw : Middleware Rest World}
    {state final : State World} (chain : Chain idx within) (found : middleware[idx]? = some mw)
    (behaves : mw req state = .ret final) :
    Faithful middleware handler req idx state ⟨idx + 1, final, [⟨.middle idx, within⟩]⟩ := by
  have stages := stagesFrom_cons middleware req found
  constructor
  · rw [stages]
    apply iff_of_true (chain.gated_middle _)
    cases stagesFrom middleware req (idx + 1) <;> simp only [onceEach, behaves]
  · intro _
    rw [stages, compose, behaves, Behaviour.around]

/-- A middleware that is not the last is one more gate when the ones after it are gates and it
returns once they have. -/
theorem faithful_next {fuel idx : Nat} {within : List Nat} {mw : Middleware Rest World}
    {state given : State World} {resume : State World → Behaviour (State World)}
    {out : Outcome World} (chain : Chain idx within) (found : middleware[idx]? = some mw)
    (behaves : mw req state = .next given resume) (inside : idx + 1 < middleware.length)
    (enough : middleware.length < fuel + (idx + 1))
    (entered : run middleware handler req fuel (idx :: within) (idx + 1) given = some out)
    (inner : Faithful middleware handler req (idx + 1) given out) :
    ∃ final, run middleware handler req (fuel + 1) within idx state = some final ∧
      Faithful middleware handler req idx state final := by
  obtain ⟨again, _, same, -, limit, moved, -⟩ := run_total middleware handler req fuel
    (idx :: within) (idx + 1) given (Nat.le_of_lt inside) enough
  obtain rfl : out = again := Option.some.inj (entered.symm.trans same)
  have later : idx + 1 < out.idx := moved inside
  have skipped : idx + 1 ∉ idx :: within := by
    rw [chain.next]
    exact Nat.lt_irrefl _
  obtain ⟨final, more, performed, traced, returns, state_eq⟩ :=
    perform_gated middleware handler req fuel limit (by omega) later inside skipped
      ([⟨.middle idx, within⟩] ++ out.trace) (resume out.state)
  have split : Gated middleware.length final.trace ↔
      Gated middleware.length out.trace ∧ (resume out.state).returned = true := by
    rw [traced, gated_append, gated_append, returns, and_iff_right (chain.gated_middle _)]
  have stages := stagesFrom_cons middleware req found
  have second := stagesFrom_cons middleware req (List.getElem?_eq_getElem inside)
  have runs : run middleware handler req (fuel + 1) within idx state = some final := by
    rw [run_middle middleware handler req found, behaves, perform_next entered, performed]
  refine ⟨final, runs, ?_, ?_⟩
  · have gates := inner.gates
    have composed := inner.composed
    rw [second] at gates composed
    rw [split, stages, second]
    simp only [onceEach, behaves, Bool.and_eq_true, ← gates]
    exact and_congr_right fun gated => by rw [composed gated]
  · intro gated
    obtain ⟨before, returned⟩ := split.mp gated
    obtain ⟨answer, resumed⟩ := Behaviour.returned_iff.mp returned
    rw [state_eq answer resumed, stages, compose, behaves, Behaviour.around,
      ← inner.composed before, resumed, Behaviour.around]

/-- From any index on, `run` comes to its end and leaves what it should. -/
theorem run_faithful (fuel : Nat) (within : List Nat) (idx : Nat) (state : State World)
    (inside : idx ≤ middleware.length) (enough : middleware.length < fuel + idx)
    (chain : Chain idx within) :
    ∃ out, run middleware handler req fuel within idx state = some out ∧
      Faithful middleware handler req idx state out := by
  induction fuel generalizing within idx state with
  | zero => omega
  | succ fuel ih =>
      cases found : middleware[idx]? with
      | none =>
          have all := List.getElem?_eq_none_iff.mp found
          exact ⟨_, run_handler middleware handler req all fuel within state,
            faithful_handler middleware handler req chain all state⟩
      | some mw =>
          obtain ⟨below, -⟩ := List.getElem?_eq_some_iff.mp found
          rcases Nat.lt_or_eq_of_le (Nat.succ_le_of_lt below) with more | last
          · cases behaves : mw req state with
            | ret final =>
                refine ⟨_, ?_, faithful_ret middleware handler req chain found behaves⟩
                rw [run_middle middleware handler req found, behaves, perform_ret]
            | next given resume =>
                have deeper : middleware.length < fuel + (idx + 1) := by omega
                obtain ⟨out, entered, inner⟩ :=
                  ih (idx :: within) (idx + 1) given below deeper chain.next
                exact faithful_next middleware handler req chain found behaves more deeper entered
                  inner
          · obtain ⟨less, rfl⟩ : ∃ less, fuel = less + 1 := ⟨fuel - 1, by omega⟩
            exact faithful_last middleware handler req chain found last state

end Chmicro.Http.Router
