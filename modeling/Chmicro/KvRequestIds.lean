import Chmicro.KeyedText
import Chmicro.KvServerPlain

set_option autoImplicit false

namespace Chmicro.KvServer

open Http HttpSession NextChain

/-- The routes of the service. -/
def routes : List RouteKey :=
  [⟨.get, "/health"⟩, ⟨.get, "/stats"⟩, ⟨.get, "/get"⟩, ⟨.post, "/put"⟩, ⟨.get, "/compute"⟩,
    ⟨.get, "/metrics"⟩]

section Ids

variable (library : Library)

/-- The middleware runs where there is a route. It makes an id when the request has none. -/
def needsId (message : Message) : Bool :=
  routes.contains ⟨message.method, text (extractPath message.target)⟩ &&
    (library.find message.fields "x-request-id").isNone

def makers (exchanges : List Exchange) : List Exchange :=
  exchanges.filter fun exchange => needsId library exchange.message

/-- The ids that were made, in the order of their responses. -/
def madeIds (exchanges : List Exchange) : List (Option String) :=
  (makers library exchanges).map fun exchange => library.find exchange.wire.fields "x-request-id"

end Ids

/-- The id that is made after this many others. -/
def nthId (seq : UInt64) (micros : Stream' UInt64) (made : Nat) : Bytes :=
  unsignedText (micros.get made) ++ ascii "-" ++ unsignedText (seq + UInt64.ofNat made)

theorem dash_not_mem_unsignedText (n : UInt64) : dash ∉ unsignedText n := by
  intro member
  exact absurd (mem_decimal member) (by decide)

/-- The sequence number of an id can be read off it. -/
theorem nthId_injective {seq : UInt64} {micros : Stream' UInt64} {made other : Nat}
    (small : made < 2 ^ 64) (bounded : other < 2 ^ 64)
    (same : nthId seq micros made = nthId seq micros other) : made = other := by
  have parts (made : Nat) : nthId seq micros made =
      unsignedText (micros.get made) ++ dash :: unsignedText (seq + UInt64.ofNat made) :=
    List.append_assoc _ _ _
  rw [parts, parts] at same
  have numbers := (KeyedText.append_separator_inj same (dash_not_mem_unsignedText _)
    (dash_not_mem_unsignedText _)).2
  have words := add_left_cancel (UInt64.toNat_inj.mp (decimal_injective numbers))
  have naturals := congrArg UInt64.toNat words
  rwa [UInt64.toNat_ofNat_of_lt' small, UInt64.toNat_ofNat_of_lt' bounded] at naturals

theorem lookup_isSome {α : Type} {rows : List (RouteKey × α)} {key : RouteKey}
    (keys : rows.map Prod.fst = routes) : (rows.lookup key).isSome ↔ key ∈ routes := by
  rw [List.lookup_isSome_iff, ← keys, List.mem_map]
  refine exists_congr fun row => and_congr_right fun _ => ?_
  rw [beq_iff_eq, eq_comm]

section World

variable {hash : Bytes → Nat} (externals : KvExternals) (library : Library)

/-- The clock and the sequence number are the middleware's alone. -/
theorem route_clock (req : Request Details) (state : KvState hash) :
    let after := ((router externals library).route req state).2.1
    let left := if (⟨req.method, req.path⟩ : RouteKey) ∈ routes
      then (requestId library req state.2.1).2 else state.2.1
    after.seq = left.seq ∧ after.micros = left.micros := by
  have rows_keep : ∀ row ∈ @rows hash externals, ∀ state,
      (row.2 req state).2.1.seq = state.2.1.seq ∧ (row.2 req state).2.1.micros = state.2.1.micros := by
    simp only [rows, List.forall_mem_cons]
    exact ⟨fun _ => ⟨rfl, rfl⟩, fun _ => ⟨rfl, rfl⟩, fun _ => ⟨rfl, rfl⟩, fun _ => ⟨rfl, rfl⟩,
      fun _ => ⟨rfl, rfl⟩, fun _ => ⟨rfl, rfl⟩, by simp⟩
  have routed := @lookup_isSome _ (@rows hash externals) ⟨req.method, req.path⟩ rfl
  dsimp only
  rw [route_router]
  cases found : (@rows hash externals).lookup ⟨req.method, req.path⟩ with
  | none =>
      rw [found] at routed
      rw [if_neg fun member => Bool.false_ne_true (routed.mpr member)]
      exact ⟨rfl, rfl⟩
  | some handler =>
      obtain ⟨before, after, split, -⟩ := List.lookup_eq_some_iff.mp found
      rw [found] at routed
      rw [if_pos (routed.mp rfl)]
      exact rows_keep (⟨req.method, req.path⟩, handler) (by simp [split]) _

end World

section Run

variable {hash : Bytes → Nat} {externals : KvExternals} {maxValueBytes : Nat} {library : Library}
  {seq : UInt64} {micros : Stream' UInt64} {random : Stream' UInt8}

/-- The ids so far, and what the next one is made of. -/
structure Identifying (library : Library) (seq : UInt64) (micros : Stream' UInt64)
    (user : ServiceState (KvWorld hash)) : Prop where
  seq_eq : user.world.seq = seq + UInt64.ofNat (makers library user.exchanges).length
  micros_eq : user.world.micros = micros.drop (makers library user.exchanges).length
  ids : madeIds library user.exchanges =
    (List.range (makers library user.exchanges).length).map fun made =>
      some (text (nthId seq micros made))

/-- A request that needs an id is answered with the one that is made for it. -/
theorem serves_id {user : ServiceState (KvWorld hash)} {message : Message} {trace : TraceContext}
    {resp : Http.Response} {world : KvWorld hash} {registry : MetricsRegistry ℚ}
    {rest : Stream' UInt8} {wire : WireResponse}
    (keeps : Keeps maxValueBytes user.world (putsOf externals maxValueBytes user.exchanges))
    (served : serve library (router externals library) message user =
      (trace, (resp, world, registry), rest))
    (built : library.respond message trace resp = some wire) :
    if needsId library message then
      world.seq = user.world.seq + 1 ∧ world.micros = user.world.micros.tail ∧
        library.find wire.fields "x-request-id" = some (text (makeRequestId user.world).1)
    else world.seq = user.world.seq ∧ world.micros = user.world.micros := by
  obtain ⟨-, headers, -, -⟩ := keeps.serves served
  obtain ⟨plain, -, -, id⟩ := plain_headersOf headers
  have clock := route_clock externals library (requestOf message trace)
    ({}, user.world, user.metrics)
  rw [← (serve_eq library (router externals library) served).2] at clock
  rw [plainHandler, lookup_isSome rfl] at id
  dsimp only at clock
  have key : (⟨(requestOf message trace).method, (requestOf message trace).path⟩ : RouteKey) =
      ⟨message.method, text (extractPath message.target)⟩ := rfl
  rw [key] at id clock
  rw [needsId]
  by_cases routed : (⟨message.method, text (extractPath message.target)⟩ : RouteKey) ∈ routes
  · rw [if_pos routed] at clock
    rw [List.contains_iff_mem.mpr routed, Bool.true_and]
    have own : ¬ Framing "x-request-id" := by decide +kernel
    have header := respond_header built own plain (id routed) (storable_requestId _ _) rfl
    unfold requestId at header clock
    have asked : (requestOf message trace).rest.fields = message.fields := rfl
    rw [asked] at header clock
    cases given : library.find message.fields "x-request-id" with
    | some value =>
        rw [given] at clock
        exact clock
    | none =>
        rw [given] at header clock
        exact ⟨clock.1, clock.2, header⟩
  · rw [if_neg routed] at clock
    rw [Bool.eq_false_iff.mpr (List.contains_iff_mem.not.mpr routed), Bool.false_and]
    exact clock

theorem makeRequestId_nth {world : KvWorld hash} {made : Nat}
    (seq_eq : world.seq = seq + UInt64.ofNat made) (micros_eq : world.micros = micros.drop made) :
    (makeRequestId world).1 = nthId seq micros made := by
  rw [makeRequestId, seq_eq, micros_eq, Stream'.head_drop]
  rfl

theorem Identifying.answers {user after : ServiceState (KvWorld hash)} {exchange : Exchange}
    {trace : TraceContext} {resp : Http.Response} {registry : MetricsRegistry ℚ}
    (identifying : Identifying library seq micros user)
    (keeps : Keeps maxValueBytes user.world (putsOf externals maxValueBytes user.exchanges))
    (answers : Answers library (router externals library) user after exchange trace resp registry) :
    Identifying library seq micros after := by
  have step := serves_id keeps answers.served answers.built
  have last : makers library (user.exchanges ++ [exchange]) =
      makers library user.exchanges ++
        if needsId library exchange.message then [exchange] else [] := by
    rw [makers, List.filter_append, List.filter_singleton, Bool.cond_eq_ite]
    rfl
  by_cases needs : needsId library exchange.message
  · rw [if_pos needs] at step last
    obtain ⟨seq_eq, micros_eq, id⟩ := step
    have more : (makers library (user.exchanges ++ [exchange])).length =
        (makers library user.exchanges).length + 1 := by
      rw [last, List.length_append, List.length_singleton]
    constructor
    · rw [answers.exchanges, more, seq_eq, identifying.seq_eq, UInt64.ofNat_add, add_assoc]
      rfl
    · rw [answers.exchanges, more, micros_eq, identifying.micros_eq, Stream'.tail_drop']
    · rw [answers.exchanges, more, List.range_succ, List.map_append, ← identifying.ids, madeIds, last,
        List.map_append, List.map_singleton, List.map_singleton, id,
        makeRequestId_nth identifying.seq_eq identifying.micros_eq]
      rfl
  · rw [if_neg needs] at step last
    rw [List.append_nil] at last
    constructor
    · rw [answers.exchanges, last, step.1, identifying.seq_eq]
    · rw [answers.exchanges, last, step.2, identifying.micros_eq]
    · rw [answers.exchanges, madeIds, last]
      exact identifying.ids

/-- One plain map tells all of the answers but these ids. -/
structure Told (seq : UInt64) (micros : Stream' UInt64) (externals : KvExternals)
    (library : Library) (maxValueBytes : Nat) (random : Stream' UInt8)
    (user : ServiceState (KvWorld hash)) : Prop where
  plainly : Plainly externals library maxValueBytes random user
  identifying : Identifying library seq micros user

theorem told_rule : Rule library (router externals library)
    (@Told hash seq micros externals library maxValueBytes random) where
  ignores sessions shut told :=
    ⟨plainly_rule.ignores sessions shut told.plainly,
      told.identifying.seq_eq, told.identifying.micros_eq, told.identifying.ids⟩
  answers told answers :=
    ⟨told.plainly.answers answers, told.identifying.answers told.plainly.keeps answers⟩
  throws told served unbuilt :=
    ⟨plainly_rule.throws told.plainly served unbuilt,
      told.identifying.seq_eq, told.identifying.micros_eq, told.identifying.ids⟩

end Run

open Transition in
/-- In every run of the service the ids that it makes are those of consecutive sequence numbers,
in the order in which the requests are handled. No id is made twice before these come round,
whatever the clock reads. -/
theorem request_ids_made (hash : Bytes → Nat) (externals : KvExternals) (library : Library)
    (shards maxValueBytes : Nat) (seq : UInt64) (micros : Stream' UInt64) (random : Stream' UInt8)
    (events : List (EventPool.Event SessionCompletion ℚ)) (loop : ServiceLoop (KvWorld hash))
    (reached : run (program library (router externals library)).step
      (start (opened shards maxValueBytes seq micros) random) events = some loop) :
    madeIds library loop.user.exchanges =
      ((List.range (makers library loop.user.exchanges).length).map fun made =>
        some (text (nthId seq micros made))) ∧
    ((makers library loop.user.exchanges).length ≤ 2 ^ 64 →
      (madeIds library loop.user.exchanges).Nodup) := by
  have told := told_rule.run ⟨plainly_start shards seq micros random, (add_zero seq).symm, rfl, rfl⟩
    reached
  have ids := told.identifying.ids
  refine ⟨ids, fun few => ?_⟩
  rw [ids]
  refine List.nodup_range.map_on fun made first other second same => ?_
  rw [List.mem_range] at first second
  exact nthId_injective (by omega) (by omega) (text_injective (Option.some.inj same))

/-- Two requests without an id, and one with an id between them. -/
def idsBetween : List (EventPool.Event SessionCompletion ℚ) :=
  [.complete (.accepted false), .dispatch 0 0, .complete (.accepted false), .dispatch 0 0,
    .complete (.read 1 (.message putting)), .dispatch 0 3,
    .complete (.read 0 (.message getting)), .dispatch 0 2,
    .complete (.written 1 false false), .dispatch 0 0,
    .complete (.read 1 (.message putting)), .dispatch 0 3]

theorem request_ids_made_between : ∃ loop,
    Transition.run (program backwards (@router (fun _ => 7) names backwards)).step
      (start (opened 64 4096 0 (Stream'.const 1)) (Stream'.const 7)) idsBetween = some loop ∧
    madeIds backwards loop.user.exchanges = [some "1-0", some "1-1"] ∧
      (madeIds backwards loop.user.exchanges).Nodup := by
  have runs : (Transition.run (program backwards (@router (fun _ => 7) names backwards)).step
      (start (opened 64 4096 0 (Stream'.const 1)) (Stream'.const 7)) idsBetween).any
        fun loop => (makers backwards loop.user.exchanges).length = 2 := by
    decide +kernel
  obtain ⟨loop, reached, two⟩ := (Option.any_eq_true _ _).mp runs
  obtain ⟨ids, distinct⟩ := request_ids_made (fun _ => 7) names backwards 64 4096 0
    (Stream'.const 1) (Stream'.const 7) idsBetween loop reached
  have two := of_decide_eq_true two
  refine ⟨loop, reached, ?_, distinct (by rw [two]; decide)⟩
  rw [ids, two]
  decide +kernel

end Chmicro.KvServer
