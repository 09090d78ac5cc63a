import Chmicro.NextChain
import Chmicro.NodeMap

set_option autoImplicit false

namespace Chmicro.Http

open NextChain

/-- The methods the network library tells apart. Any other one is unknown. -/
inductive Verb where
  | unknown | delete | get | head | post | put | connect | options | trace | copy | lock | mkcol
  | move | propfind | proppatch | search | unlock | bind | rebind | unbind | acl | report
  | mkactivity | checkout | merge | msearch | notify | subscribe | unsubscribe | patch | purge
  | mkcalendar | link | unlink
  deriving DecidableEq, Repr

/-- The router reads the method and the path. The rest is for handlers and middlewares. -/
structure Request (Rest : Type) where
  method : Verb
  path : String
  rest : Rest

structure Response where
  status : UInt32 := 200
  body : String := ""
  contentType : String := "text/plain; charset=utf-8"
  headers : NodeMap String String := .empty

/-- The response and everything else that handlers and middlewares read and change. -/
abbrev State (World : Type) := Response × World

abbrev Handler (Rest World : Type) := Request Rest → State World → State World

abbrev Middleware (Rest World : Type) := Request Rest → State World → Behaviour (State World)

structure RouteKey where
  method : Verb
  path : String
  deriving DecidableEq, Repr

structure Router (Rest World : Type) where
  middleware : List (Middleware Rest World) := []
  routes : NodeMap RouteKey (Handler Rest World) := .empty

/-- What a call of `run` leaves: the shared index, the state, and the entries of stages that
were made. -/
structure Outcome (World : Type) where
  idx : Nat
  state : State World
  trace : List Entry

namespace Router

variable {Rest World : Type}

def use (router : Router Rest World) (mw : Middleware Rest World) : Router Rest World :=
  { router with middleware := router.middleware ++ [mw] }

def addRoute (router : Router Rest World) (method : Verb) (path : String)
    (handler : Handler Rest World) : Router Rest World :=
  { router with routes := router.routes.assign ⟨method, path⟩ handler }

def get (router : Router Rest World) (path : String) (handler : Handler Rest World) :
    Router Rest World :=
  router.addRoute .get path handler

def post (router : Router Rest World) (path : String) (handler : Handler Rest World) :
    Router Rest World :=
  router.addRoute .post path handler

/-- What is left of a middleware is carried out. Each of its calls enters `run` at the index
that the calls before have left. -/
def perform (run : Nat → State World → Option (Outcome World)) (idx : Nat) (trace : List Entry) :
    Behaviour (State World) → Option (Outcome World)
  | .ret state => some ⟨idx, state, trace⟩
  | .next state resume =>
      (run idx state).bind fun out => perform run out.idx (trace ++ out.trace) (resume out.state)

/-- The closure `run` of `Handle`. The calls nest no deeper than the fuel. -/
def run (middleware : List (Middleware Rest World)) (handler : Handler Rest World)
    (req : Request Rest) : Nat → List Nat → Nat → State World → Option (Outcome World)
  | 0, _, _, _ => none
  | fuel + 1, within, idx, state =>
      match middleware[idx]? with
      | some mw =>
          perform (run middleware handler req fuel (idx :: within)) (idx + 1)
            [⟨.middle idx, within⟩] (mw req state)
      | none => some ⟨idx, handler req state, [⟨.handler, within⟩]⟩

def notFound (resp : Response) : Response :=
  { resp with
    status := 404
    contentType := "application/json; charset=utf-8"
    body := "\x7b\"error\":\"not_found\"\x7d" }

def handle (router : Router Rest World) (req : Request Rest) (state : State World) :
    Option (Outcome World) :=
  match router.routes.get? ⟨req.method, req.path⟩ with
  | none => some ⟨0, (notFound state.1, state.2), []⟩
  | some handler =>
      run router.middleware handler req (router.middleware.length + 1) [] 0 state

theorem perform_ret (run : Nat → State World → Option (Outcome World)) (idx : Nat)
    (trace : List Entry) (state : State World) :
    perform run idx trace (.ret state) = some ⟨idx, state, trace⟩ := rfl

theorem perform_next {run : Nat → State World → Option (Outcome World)} {idx : Nat}
    {trace : List Entry} {state : State World} {resume : State World → Behaviour (State World)}
    {out : Outcome World} (entered : run idx state = some out) :
    perform run idx trace (.next state resume) =
      perform run out.idx (trace ++ out.trace) (resume out.state) := by
  rw [perform, entered, Option.bind_some]

variable (middleware : List (Middleware Rest World)) (handler : Handler Rest World)
  (req : Request Rest)

theorem run_middle {fuel idx : Nat} {mw : Middleware Rest World} (found : middleware[idx]? = some mw)
    (within : List Nat) (state : State World) :
    run middleware handler req (fuel + 1) within idx state =
      perform (run middleware handler req fuel (idx :: within)) (idx + 1)
        [⟨.middle idx, within⟩] (mw req state) := by
  rw [run, found]

theorem run_handler {idx : Nat} (all : middleware.length ≤ idx) (fuel : Nat) (within : List Nat)
    (state : State World) :
    run middleware handler req (fuel + 1) within idx state =
      some ⟨idx, handler req state, [⟨.handler, within⟩]⟩ := by
  rw [run, List.getElem?_eq_none all]

end Router

end Chmicro.Http
