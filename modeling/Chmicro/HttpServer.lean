import Chmicro.Transition

set_option autoImplicit false

namespace Chmicro.Http

/-- How far the acceptor's socket has been set up. -/
inductive Acceptor where
  | closed
  | opened
  | bound
  | listening
  deriving DecidableEq, Repr

inductive AcceptResult where
  | accepted
  | failed
  deriving DecidableEq, Repr

/-- An `async_accept` whose handler has not run. It is outstanding while it has no result,
and its handler is queued from then on. The number is that of the start that began its chain,
which the source does not keep. -/
structure Accept where
  start : Nat
  result : Option AcceptResult := none
  deriving DecidableEq, Repr

def Accept.cancel (accept : Accept) : Accept :=
  { accept with result := accept.result.or (some .failed) }

/-- Which steps of `Start` end without an error. -/
structure StartSteps where
  parse : Bool := true
  «open» : Bool := true
  setOption : Bool := true
  bind : Bool := true
  listen : Bool := true
  deriving DecidableEq, Repr

/-- The steps that `Start` cannot go on without. A failed `set_option` is only logged. -/
def StartSteps.Pass (steps : StartSteps) : Prop :=
  steps.parse = true ∧ steps.open = true ∧ steps.bind = true ∧ steps.listen = true

instance (steps : StartSteps) : Decidable steps.Pass :=
  inferInstanceAs (Decidable
    (steps.parse = true ∧ steps.open = true ∧ steps.bind = true ∧ steps.listen = true))

structure HttpServer where
  running : Bool := false
  acceptor : Acceptor := .closed
  starts : Nat := 0
  accepts : List Accept := []
  deriving DecidableEq, Repr

namespace HttpServer

/-- An `async_accept` on an acceptor that does not listen fails at once. -/
def doAccept (server : HttpServer) (start : Nat) : HttpServer :=
  let result := if server.acceptor = .listening then none else some .failed
  { server with accepts := server.accepts ++ [{ start, result }] }

def start (server : HttpServer) (steps : StartSteps) : HttpServer :=
  if server.running then
    server
  else
    let server := { server with running := true }
    if ¬ steps.parse then
      server
    else if ¬ steps.open then
      server
    else
      let server := { server with acceptor := .opened }
      if ¬ steps.bind then
        server
      else
        let server := { server with acceptor := .bound }
        if ¬ steps.listen then
          server
        else
          let server := { server with acceptor := .listening, starts := server.starts + 1 }
          server.doAccept server.starts

/-- Cancelling and closing the acceptor ends what is outstanding with an error. -/
def stop (server : HttpServer) : HttpServer :=
  if server.running then
    { server with
      running := false
      acceptor := .closed
      accepts := server.accepts.map Accept.cancel }
  else
    server

/-- The completion handler. The session of an accepted socket plays no part here. -/
def onAccept (server : HttpServer) (start : Nat) : AcceptResult → HttpServer
  | .failed => if server.running then server.doAccept start else server
  | .accepted => server.doAccept start

inductive Action where
  | start (steps : StartSteps)
  | stop
  | complete (accept : Nat) (result : AcceptResult)
  | handle (accept : Nat)
  deriving DecidableEq, Repr

def step (server : HttpServer) : Action → Option HttpServer
  | .start steps => some (server.start steps)
  | .stop => some server.stop
  | .complete accept result =>
      match server.accepts[accept]? with
      | some ⟨start, none⟩ =>
          some { server with accepts := server.accepts.set accept ⟨start, some result⟩ }
      | _ => none
  | .handle accept =>
      match server.accepts[accept]? with
      | some ⟨start, some result⟩ =>
          let server := { server with accepts := server.accepts.eraseIdx accept }
          some (server.onAccept start result)
      | _ => none

@[simp] theorem doAccept_running (server : HttpServer) (start : Nat) :
    (server.doAccept start).running = server.running := rfl

@[simp] theorem doAccept_acceptor (server : HttpServer) (start : Nat) :
    (server.doAccept start).acceptor = server.acceptor := rfl

@[simp] theorem doAccept_starts (server : HttpServer) (start : Nat) :
    (server.doAccept start).starts = server.starts := rfl

theorem start_running {server : HttpServer} (running : server.running = true)
    (steps : StartSteps) : server.start steps = server := by
  simp only [start, running, ↓reduceIte]

theorem start_passes {server : HttpServer} (idle : server.running = false) {steps : StartSteps}
    (pass : steps.Pass) :
    server.start steps =
      { server with
        running := true
        acceptor := .listening
        starts := server.starts + 1
        accepts := server.accepts ++ [{ start := server.starts + 1 }] } := by
  obtain ⟨parse, opens, binds, listens⟩ := pass
  simp [start, idle, parse, opens, binds, listens, doAccept]

/-- Each error path leaves the flag set, and the acceptor as far as it was set up by then. -/
theorem start_fails {server : HttpServer} (idle : server.running = false) {steps : StartSteps}
    (fails : ¬ steps.Pass) :
    ∃ acceptor, server.start steps = { server with running := true, acceptor } ∧
      (acceptor = server.acceptor ∨ acceptor = .opened ∨ acceptor = .bound) := by
  by_cases parse : steps.parse = true
  · by_cases opens : steps.open = true
    · by_cases binds : steps.bind = true
      · by_cases listens : steps.listen = true
        · exact (fails ⟨parse, opens, binds, listens⟩).elim
        · refine ⟨.bound, ?_, .inr (.inr rfl)⟩
          simp [start, idle, parse, opens, binds, listens]
      · refine ⟨.opened, ?_, .inr (.inl rfl)⟩
        simp [start, idle, parse, opens, binds]
    · refine ⟨server.acceptor, ?_, .inl rfl⟩
      simp [start, idle, parse, opens]
  · refine ⟨server.acceptor, ?_, .inl rfl⟩
    simp [start, idle, parse]

theorem stop_running {server : HttpServer} (running : server.running = true) :
    server.stop =
      { server with
        running := false
        acceptor := .closed
        accepts := server.accepts.map Accept.cancel } := by
  simp only [stop, running, ↓reduceIte]

theorem stop_idle {server : HttpServer} (idle : server.running = false) :
    server.stop = server := by
  simp [stop, idle]

/-- A handler either ends its chain or begins the next `async_accept` of it. -/
theorem onAccept_cases (server : HttpServer) (start : Nat) (result : AcceptResult) :
    server.running = false ∧ server.onAccept start result = server ∨
      server.onAccept start result = server.doAccept start := by
  cases result with
  | accepted => exact .inr rfl
  | failed =>
      cases running : server.running with
      | true => exact .inr (by simp [onAccept, running])
      | false => exact .inl ⟨rfl, by simp [onAccept, running]⟩

@[simp] theorem onAccept_running (server : HttpServer) (start : Nat) (result : AcceptResult) :
    (server.onAccept start result).running = server.running := by
  rcases server.onAccept_cases start result with ⟨-, same⟩ | again
  · rw [same]
  · rw [again, doAccept_running]

@[simp] theorem onAccept_acceptor (server : HttpServer) (start : Nat) (result : AcceptResult) :
    (server.onAccept start result).acceptor = server.acceptor := by
  rcases server.onAccept_cases start result with ⟨-, same⟩ | again
  · rw [same]
  · rw [again, doAccept_acceptor]

/-- Every way the server moves. -/
inductive Moves (server : HttpServer) : Action → HttpServer → Prop where
  | starts (steps : StartSteps) : Moves server (.start steps) (server.start steps)
  | stops : Moves server .stop server.stop
  | completes (accept : Nat) (result : AcceptResult) (start : Nat)
      (at_ : server.accepts[accept]? = some ⟨start, none⟩) :
      Moves server (.complete accept result)
        { server with accepts := server.accepts.set accept ⟨start, some result⟩ }
  | handles (accept : Nat) (start : Nat) (result : AcceptResult)
      (at_ : server.accepts[accept]? = some ⟨start, some result⟩) :
      Moves server (.handle accept)
        (onAccept { server with accepts := server.accepts.eraseIdx accept } start result)

theorem step_moves {server after : HttpServer} {action : Action}
    (taken : server.step action = some after) : Moves server action after := by
  cases action with
  | start steps =>
      cases taken
      exact .starts steps
  | stop =>
      cases taken
      exact .stops
  | complete accept result =>
      simp only [step] at taken
      split at taken
      · rename_i start at_
        cases taken
        exact .completes accept result start at_
      · cases taken
  | handle accept =>
      simp only [step] at taken
      split at taken
      · rename_i start result at_
        cases taken
        exact .handles accept start result at_
      · cases taken

end HttpServer

end Chmicro.Http
