import Chmicro.HttpSessionProtocol
import Chmicro.MetricsKey

set_option autoImplicit false

namespace Chmicro.Http.HttpSession

open EventLoop MetricsRegistry

/-- The key of the counter of a path and a status. -/
def requestsKey (path : Bytes) (status : UInt32) : Bytes :=
  key (ascii "http_server_requests_total") (pathAndStatus path status)

/-- The key of the histogram of a path. -/
def latencyKey (path : Bytes) : Bytes := key (ascii "http_server_request_ms") (pathLabels path)

section Keys

variable {path other : Bytes}

theorem requestsKey_injective (plain : newline ∉ path) (whole : newline ∉ other)
    {status code : UInt32} (same : requestsKey path status = requestsKey other code) :
    path = other ∧ status = code := by
  have legal (path : Bytes) (status : UInt32) :
      Legal (ascii "http_server_requests_total") (pathAndStatus path status) :=
    ⟨by decide, by simp [pathAndStatus]; decide⟩
  have framed {path : Bytes} (plain : newline ∉ path) (status : UInt32) :
      Framed (pathAndStatus path status) :=
    .of_plain (by simp [pathAndStatus, plain, newline_not_mem_decimal])
  have labels := congrArg MetricLabels.kv
    (key_injective (legal path status) (legal other code) (framed plain status) (framed whole code)
      same).2
  simp only [pathAndStatus, List.cons.injEq, Prod.mk.injEq, true_and, and_true] at labels
  exact ⟨labels.1, UInt32.toNat_inj.mp (decimal_injective labels.2)⟩

theorem latencyKey_injective (plain : newline ∉ path) (whole : newline ∉ other)
    (same : latencyKey path = latencyKey other) : path = other := by
  have legal (path : Bytes) : Legal (ascii "http_server_request_ms") (pathLabels path) :=
    ⟨by decide, by simp [pathLabels]; decide⟩
  have framed {path : Bytes} (plain : newline ∉ path) : Framed (pathLabels path) :=
    .of_plain (by simp [pathLabels, plain])
  have labels := congrArg MetricLabels.kv
    (key_injective (legal path) (legal other) (framed plain) (framed whole) same).2
  simpa [pathLabels] using labels

end Keys

section Measure

variable (metrics : MetricsRegistry ℚ) (path : Bytes) (status : UInt32) (elapsed : ℚ)

def requestCount (metrics : MetricsRegistry ℚ) (key : Bytes) : Option Int64 :=
  (metrics.counters.get? key).map (·.counter.value)

def latencyCount (metrics : MetricsRegistry ℚ) (key : Bytes) : Option UInt64 :=
  (metrics.histograms.get? key).map (·.histogram.count)

/-- One request more is counted, under its path and status only. -/
theorem requestCount_measure (other : Bytes) :
    requestCount (measure metrics path status elapsed) other =
      if requestsKey path status = other then some ((requestCount metrics other).getD 0 + 1)
      else requestCount metrics other := by
  have counters : (measure metrics path status elapsed).counters.get? other = _ :=
    NodeMap.get?_emplace_modify metrics.counters (requestsKey path status) _ _ other
  rw [requestCount, requestCount, counters]
  split
  · rename_i same
    subst same
    cases metrics.counters.get? (requestsKey path status) <;> rfl
  · rfl

theorem latencyCount_measure (other : Bytes) :
    latencyCount (measure metrics path status elapsed) other =
      if latencyKey path = other then some ((latencyCount metrics other).getD 0 + 1)
      else latencyCount metrics other := by
  have histograms : (measure metrics path status elapsed).histograms.get? other = _ :=
    NodeMap.get?_emplace_modify metrics.histograms (latencyKey path) _ _ other
  rw [latencyCount, latencyCount, histograms]
  split
  · rename_i same
    subst same
    cases metrics.histograms.get? (latencyKey path) <;> rfl
  · rfl

end Measure

/-- The requests of a path that were answered with a status. -/
def answered (path : Bytes) (status : UInt32) (exchanges : List Exchange) : Nat :=
  exchanges.countP fun exchange =>
    extractPath exchange.message.target = path && exchange.wire.status = status

def asked (path : Bytes) (exchanges : List Exchange) : Nat :=
  exchanges.countP fun exchange => extractPath exchange.message.target = path

/-- What a series shows, which is there once something was counted. -/
def tally {N : Type} (ofNat : Nat → N) (count : Nat) : Option N :=
  if count = 0 then none else some (ofNat count)

theorem tally_succ {N : Type} [Zero N] [Add N] [One N] {ofNat : Nat → N} (zero : ofNat 0 = 0)
    (succ : ∀ n, ofNat (n + 1) = ofNat n + 1) (count : Nat) :
    some ((tally ofNat count).getD 0 + 1) = tally ofNat (count + 1) := by
  rw [tally, tally, if_neg (Nat.succ_ne_zero count), succ]
  split
  · rename_i none_
    rw [none_, Option.getD_none, zero]
  · rw [Option.getD_some]

theorem answered_concat (path : Bytes) (status : UInt32) (exchanges : List Exchange)
    (exchange : Exchange) : answered path status (exchanges ++ [exchange]) =
      answered path status exchanges +
        if extractPath exchange.message.target = path ∧ exchange.wire.status = status then 1
        else 0 := by
  rw [answered, answered, List.countP_append, List.countP_singleton]
  simp only [Bool.and_eq_true, decide_eq_true_eq]

theorem asked_concat (path : Bytes) (exchanges : List Exchange) (exchange : Exchange) :
    asked path (exchanges ++ [exchange]) = asked path exchanges +
      if extractPath exchange.message.target = path then 1 else 0 := by
  rw [asked, asked, List.countP_append, List.countP_singleton]
  simp only [decide_eq_true_eq]

/-- What the sessions make of a fresh registry that the handlers leave alone. -/
def measured (exchanges : List Exchange) : MetricsRegistry ℚ :=
  exchanges.foldl (fun metrics exchange =>
    measure metrics (extractPath exchange.message.target) exchange.wire.status exchange.elapsed) {}

theorem measured_concat (exchanges : List Exchange) (exchange : Exchange) :
    measured (exchanges ++ [exchange]) =
      measure (measured exchanges) (extractPath exchange.message.target) exchange.wire.status
        exchange.elapsed := by
  rw [measured, List.foldl_append]
  rfl

theorem newline_not_mem_extractPath {target : Bytes} (plain : newline ∉ target) :
    newline ∉ extractPath target := by
  unfold extractPath
  split
  · exact plain
  · exact fun member => plain (List.mem_of_mem_take member)

section Measured

variable {exchanges : List Exchange}
  (plain : ∀ exchange ∈ exchanges, newline ∉ exchange.message.target) {path : Bytes}
  (whole : newline ∉ path)

include plain whole

theorem requestCount_measured (status : UInt32) :
    requestCount (measured exchanges) (requestsKey path status) =
      tally Int64.ofNat (answered path status exchanges) := by
  induction exchanges using List.reverseRecOn with
  | nil => rfl
  | append_singleton exchanges exchange ih =>
      rw [List.forall_mem_append, List.forall_mem_singleton] at plain
      have before := ih plain.1
      rw [measured_concat, requestCount_measure, answered_concat]
      by_cases same : extractPath exchange.message.target = path ∧ exchange.wire.status = status
      · rw [if_pos same, before, if_pos (by rw [same.1, same.2])]
        exact tally_succ rfl (fun n => Int64.ofNat_add n 1) _
      · have other : requestsKey (extractPath exchange.message.target) exchange.wire.status ≠
            requestsKey path status := fun equal =>
          same (requestsKey_injective (newline_not_mem_extractPath plain.2) whole equal)
        rw [if_neg other, before, if_neg same, Nat.add_zero]

theorem latencyCount_measured :
    latencyCount (measured exchanges) (latencyKey path) =
      tally UInt64.ofNat (asked path exchanges) := by
  induction exchanges using List.reverseRecOn with
  | nil => rfl
  | append_singleton exchanges exchange ih =>
      rw [List.forall_mem_append, List.forall_mem_singleton] at plain
      have before := ih plain.1
      rw [measured_concat, latencyCount_measure, asked_concat]
      by_cases same : extractPath exchange.message.target = path
      · rw [if_pos same, before, if_pos (by rw [same])]
        exact tally_succ rfl (fun n => UInt64.ofNat_add n 1) _
      · have other : latencyKey (extractPath exchange.message.target) ≠ latencyKey path :=
          fun equal =>
            same (latencyKey_injective (newline_not_mem_extractPath plain.2) whole equal)
        rw [if_neg other, before, if_neg same, Nat.add_zero]

end Measured

variable {World : Type}

/-- The registry is what the requests that were handled have made of it. -/
structure Counted (user : ServiceState World) : Prop where
  metrics : user.metrics = measured user.exchanges
  plain : ∀ exchange ∈ user.exchanges, newline ∉ exchange.message.target

theorem counted_start (world : World) (random : Stream' UInt8) :
    Counted { world, random : ServiceState World } where
  metrics := rfl
  plain _ impossible := by cases impossible

section Steps

variable {library : Library} {router : Router Details (Shared World)}
  (quiet : ∀ req state, (router.route req state).2.2 = state.2.2)

include quiet

/-- A request is handled, and counted under its path and status. -/
theorem Counted.answers {user after : ServiceState World} {exchange : Exchange}
    {trace : TraceContext} {resp : Response} {registry : MetricsRegistry ℚ} (counted : Counted user)
    (answers : Answers library router user after exchange trace resp registry) :
    Counted after := by
  have untouched : registry = user.metrics := by
    have routed := congrArg (fun served => served.2.1.2.2) answers.served
    exact routed.symm.trans (quiet _ _)
  have code : exchange.wire.status = resp.status := (respond_kept answers.built).1
  constructor
  · rw [answers.metrics, untouched, counted.metrics, answers.exchanges, measured_concat, code]
  · rw [answers.exchanges, List.forall_mem_append, List.forall_mem_singleton]
    exact ⟨counted.plain, answers.plain⟩

theorem counted_rule : Rule library router Counted where
  ignores _ _ counted := ⟨counted.metrics, counted.plain⟩
  answers counted answers := counted.answers quiet answers
  throws counted _ _ := ⟨counted.metrics, counted.plain⟩

end Steps

open Transition in
/-- In every run of a server whose handlers leave the registry alone, a path and a status have
a counter when a request of that path was answered with it, and the counter is the number of
such requests. The histogram of a path counts the requests of the path. -/
theorem requests_counted (library : Library) (router : Router Details (Shared World))
    (quiet : ∀ req state, (router.route req state).2.2 = state.2.2) (world : World)
    (random : Stream' UInt8) (events : List (EventPool.Event SessionCompletion ℚ))
    (loop : ServiceLoop World)
    (reached : run (program library router).step (start world random) events = some loop)
    (path : Bytes) (plain : newline ∉ path) :
    (∀ status, requestCount loop.user.metrics (requestsKey path status) =
      tally Int64.ofNat (answered path status loop.user.exchanges)) ∧
    latencyCount loop.user.metrics (latencyKey path) =
      tally UInt64.ofNat (asked path loop.user.exchanges) := by
  have counted := (counted_rule quiet).run (counted_start world random) reached
  rw [counted.metrics]
  exact ⟨requestCount_measured counted.plain plain, latencyCount_measured counted.plain plain⟩

/-- A server with one page. -/
def onePage : Router Details (Shared Unit) := Router.get {} "/x" fun _ state => state

theorem onePage_quiet (req : Request Details) (state : State (Shared Unit)) :
    (onePage.route req state).2.2 = state.2.2 := by
  have routes : onePage.routes.get? ⟨req.method, req.path⟩ =
      if (⟨.get, "/x"⟩ : RouteKey) = ⟨req.method, req.path⟩ then some fun _ state => state
      else none := by
    split
    · rename_i same
      rw [← same]
      exact NodeMap.get?_assign_self _ _ _
    · rename_i other
      exact NodeMap.get?_assign_ne _ other _
  split at routes
  · rw [Router.route_found onePage req routes (by simp [onePage, Router.get, Router.addRoute])]
    rfl
  · rw [Router.route_missing onePage req routes]

/-- A request of the page, one with another method, and one on a second session. -/
def pageRequests : List (EventPool.Event SessionCompletion ℚ) :=
  [.complete (.accepted false), .dispatch 0 0, .complete (.accepted false), .dispatch 0 0,
    .complete (.read 0 (.message { method := .get, target := ascii "/x" })), .dispatch 0 3,
    .complete (.read 1 (.message { method := .get, target := ascii "/x?a=b" })), .dispatch 0 1,
    .complete (.written 0 false false), .dispatch 0 0,
    .complete (.read 0 (.message { method := .post, target := ascii "/x" })), .dispatch 0 2]

theorem requests_counted_pages :
    ∃ loop, Transition.run (program backwards onePage).step (start () (Stream'.const 7))
        pageRequests = some loop ∧
      requestCount loop.user.metrics (requestsKey (ascii "/x") 200) = some 2 ∧
      requestCount loop.user.metrics (requestsKey (ascii "/x") 404) = some 1 ∧
      requestCount loop.user.metrics (requestsKey (ascii "/x") 500) = none ∧
      latencyCount loop.user.metrics (latencyKey (ascii "/x")) = some 3 := by
  have runs : (Transition.run (program backwards onePage).step (start () (Stream'.const 7))
      pageRequests).any fun loop => loop.user.exchanges.map (fun exchange =>
        (extractPath exchange.message.target, exchange.wire.status)) =
          [(ascii "/x", 200), (ascii "/x", 200), (ascii "/x", 404)] := by
    decide +kernel
  obtain ⟨loop, reached, handled⟩ := (Option.any_eq_true _ _).mp runs
  have handled := of_decide_eq_true handled
  obtain ⟨requests, latencies⟩ := requests_counted backwards onePage onePage_quiet ()
    (Stream'.const 7) pageRequests loop reached (ascii "/x") (by decide)
  have page (status : UInt32) : answered (ascii "/x") status loop.user.exchanges =
      [(ascii "/x", (200 : UInt32)), (ascii "/x", 200), (ascii "/x", 404)].countP
        fun answer => answer.1 = ascii "/x" && answer.2 = status := by
    rw [← handled, List.countP_map]
    rfl
  have all : asked (ascii "/x") loop.user.exchanges =
      [(ascii "/x", (200 : UInt32)), (ascii "/x", 200), (ascii "/x", 404)].countP
        fun answer => answer.1 = ascii "/x" := by
    rw [← handled, List.countP_map]
    rfl
  refine ⟨loop, reached, ?_, ?_, ?_, ?_⟩
  · rw [requests, page]
    decide +kernel
  · rw [requests, page]
    decide +kernel
  · rw [requests, page]
    decide +kernel
  · rw [latencies, all]
    decide +kernel

end Chmicro.Http.HttpSession
