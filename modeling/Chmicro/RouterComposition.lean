import Mathlib.Data.List.Induction
import Chmicro.RouterRun

set_option autoImplicit false

namespace Chmicro.Http

open NextChain

/-- A call that builds a router. -/
inductive Registration (Rest World : Type) where
  | use (mw : Middleware Rest World)
  | addRoute (method : Verb) (path : String) (handler : Handler Rest World)

namespace Registration

variable {Rest World : Type}

def apply (router : Router Rest World) : Registration Rest World → Router Rest World
  | .use mw => router.use mw
  | .addRoute method path handler => router.addRoute method path handler

def build (calls : List (Registration Rest World)) : Router Rest World :=
  calls.foldl apply {}

/-- The middleware a call adds. -/
def middleware : Registration Rest World → Option (Middleware Rest World)
  | .use mw => some mw
  | .addRoute .. => none

/-- The handler a call sets for exactly this method and path. -/
def handlerFor (key : RouteKey) : Registration Rest World → Option (Handler Rest World)
  | .use _ => none
  | .addRoute method path handler =>
      if (⟨method, path⟩ : RouteKey) = key then some handler else none

def lastHandler (calls : List (Registration Rest World)) (key : RouteKey) :
    Option (Handler Rest World) :=
  (calls.filterMap (handlerFor key)).getLast?

theorem build_concat (calls : List (Registration Rest World)) (call : Registration Rest World) :
    build (calls ++ [call]) = apply (build calls) call := by
  simp [build]

theorem build_middleware (calls : List (Registration Rest World)) :
    (build calls).middleware = calls.filterMap middleware := by
  induction calls using List.reverseRecOn with
  | nil => rfl
  | append_singleton calls call ih =>
      rw [build_concat, List.filterMap_append, ← ih]
      cases call with
      | use mw => rfl
      | addRoute method path handler => exact (List.append_nil _).symm

/-- The last registration of a route is the one that counts. -/
theorem build_routes (calls : List (Registration Rest World)) (key : RouteKey) :
    (build calls).routes.get? key = lastHandler calls key := by
  induction calls using List.reverseRecOn with
  | nil => rfl
  | append_singleton calls call ih =>
      rw [build_concat, lastHandler, List.filterMap_append]
      cases call with
      | use mw => exact ih.trans (by simp [lastHandler, handlerFor])
      | addRoute method path handler =>
          by_cases same : (⟨method, path⟩ : RouteKey) = key
          · subst same
            simp [apply, Router.addRoute, NodeMap.get?_assign_self, handlerFor]
          · simp only [apply, Router.addRoute, NodeMap.get?_assign_ne _ same, ih, lastHandler,
              handlerFor, same, List.filterMap_cons, List.filterMap_nil, ↓reduceIte,
              List.append_nil]

end Registration

open Registration in
/-- A router handles a request as its middlewares nested around the handler of the last
matching route, when each calls next at most once. What comes after a middleware is entered
from within its calls, and not at all when it never calls. Without a route only the answer
changes. -/
theorem handle_composes {Rest World : Type} (calls : List (Registration Rest World))
    (req : Request Rest) (resp : Response) (world : World)
    (once : ∀ mw ∈ calls.filterMap middleware, ∀ state, (mw req state).AtMostOnce) :
    ∃ out, (build calls).handle req (resp, world) = some out ∧
      match lastHandler calls ⟨req.method, req.path⟩ with
      | some handler =>
          out.state = compose (handler req)
            ((calls.filterMap middleware).map fun mw => mw req) (resp, world) ∧
          Gated (calls.filterMap middleware).length out.trace ∧
          ∀ (index : Nat) mw, (calls.filterMap middleware)[index]? = some mw →
            (∀ state, (mw req state).returned = true) →
            ∀ entry ∈ out.trace, entry.stage.after index = false
      | none =>
          out.trace = [] ∧ out.state =
            ({ resp with
                status := 404
                contentType := "application/json; charset=utf-8"
                body := "\x7b\"error\":\"not_found\"\x7d" }, world) := by
  unfold Router.handle
  rw [build_routes, build_middleware]
  cases lastHandler calls ⟨req.method, req.path⟩ with
  | none => exact ⟨_, rfl, rfl, rfl⟩
  | some handler =>
      let middlewares := calls.filterMap middleware
      obtain ⟨out, ran, faithful⟩ := Router.run_faithful middlewares handler req
        (middlewares.length + 1) [] 0 (resp, world) (Nat.zero_le _) (Nat.lt_succ_self _)
        (fun index => by simp)
      have each : onceEach (handler req) (middlewares.map fun mw => mw req) (resp, world) = true := by
        refine onceEach_of_atMostOnce (fun stage member => ?_) _ _
        obtain ⟨mw, listed, rfl⟩ := List.mem_map.mp member
        exact once mw listed
      have gated : Gated middlewares.length out.trace := faithful.gates.mpr each
      refine ⟨out, ran, faithful.composed gated, gated, fun index mw found silent entry member => ?_⟩
      -- Were a later stage entered, the middleware would have called.
      by_contra after
      have within := gated entry member index (List.getElem?_eq_some_iff.mp found).1 (by simpa using after)
      rcases Router.run_within _ _ _ _ _ _ _ _ ran entry member index within with
        impossible | ⟨other, standing, state, calling⟩
      · cases impossible
      · obtain rfl : mw = other := Option.some.inj (found.symm.trans standing)
        rw [silent state] at calling
        cases calling

/-- A middleware that marks the response before and after its call. -/
def marking (mark : String) : Middleware Unit Unit := fun _ state =>
  .next ({ state.1 with body := state.1.body ++ mark }, ()) fun after =>
    .ret ({ after.1 with body := after.1.body ++ mark }, ())

def answering (answer : String) : Handler Unit Unit := fun _ state =>
  ({ state.1 with body := state.1.body ++ answer }, ())

def twoMarks : List (Registration Unit Unit) :=
  [.use (marking "a"), .addRoute .get "/" (answering "old"), .use (marking "b"),
    .addRoute .get "/" (answering "new")]

theorem handle_composes_two_marks :
    ∃ out, (Registration.build twoMarks).handle ⟨.get, "/", ()⟩ ({}, ()) = some out ∧
      out.state.1.body = "abnewba" := by
  obtain ⟨out, handled, composed, -, -⟩ := handle_composes twoMarks ⟨.get, "/", ()⟩ {} () (by
    intro mw member state
    have marks : mw = marking "a" ∨ marking "b" = mw := by
      simpa [twoMarks, Registration.middleware] using member
    rcases marks with rfl | rfl <;> exact fun _ => rfl)
  exact ⟨out, handled, by rw [composed]; rfl⟩

end Chmicro.Http
