import Chmicro.RouterRun

set_option autoImplicit false

namespace Chmicro.Http

open NextChain

namespace Router

variable {Rest World : Type}

/-- The middlewares are gates for a request just when all of them but the last, on the states
they are given when they are nested around the handler, call next at most once. -/
theorem gated_iff_once (router : Router Rest World) (req : Request Rest) (state : State World) :
    ∃ out, router.handle req state = some out ∧
      (Gated router.middleware.length out.trace ↔
        ∀ handler, router.routes.get? ⟨req.method, req.path⟩ = some handler →
          onceEach (handler req) (router.middleware.map fun mw => mw req) state = true) := by
  unfold handle
  cases router.routes.get? ⟨req.method, req.path⟩ with
  | none =>
      exact ⟨_, rfl, iff_of_true (fun _ impossible => (by cases impossible))
        fun _ impossible => (by cases impossible)⟩
  | some handler =>
      obtain ⟨out, ran, faithful⟩ := run_faithful router.middleware handler req
        (router.middleware.length + 1) [] 0 state (Nat.zero_le _) (Nat.lt_succ_self _)
        (fun index => by simp)
      refine ⟨out, ran, faithful.gates.trans ?_⟩
      constructor
      · intro once other same
        cases same
        exact once
      · intro once
        exact once handler rfl

/-- A middleware that calls next a second time. -/
def retry : Middleware Unit Unit := fun _ state => .next state fun state => .next state .ret

/-- A middleware that refuses and never calls next. -/
def refuse : Middleware Unit Unit := fun _ state => .ret ({ state.1 with status := 401 }, state.2)

def reveal : Handler Unit Unit := fun _ state => ({ state.1 with body := "secret" }, state.2)

def guarded : Router Unit Unit :=
  (({} : Router Unit Unit).use retry).use refuse |>.get "/" reveal

/-- The second call of the first middleware finds the index behind the middleware that refuses,
and enters the handler. -/
theorem second_next_skips_gate :
    ∃ out, guarded.handle ⟨.get, "/", ()⟩ ({}, ()) = some out ∧ out.state.1.body = "secret" ∧
      out.trace = [⟨.middle 0, []⟩, ⟨.middle 1, [0]⟩, ⟨.handler, [0]⟩] ∧
      ¬ Gated guarded.middleware.length out.trace :=
  ⟨_, rfl, rfl, rfl, by decide⟩

end Router

end Chmicro.Http
