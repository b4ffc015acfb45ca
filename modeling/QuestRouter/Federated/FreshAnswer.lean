import Mathlib.Logic.Relation
import QuestRouter.Federated.ShardTasks

/-!
# The answer of a fresh connection

A call of `query_shard` that has the pool to itself acquires the connection that was released last. A connection
error makes it acquire another one, which is the one released before, and whatever that one answers is the result.
-/

namespace QuestRouter.Federated
open Text Data Pool Arrow

/-- A connection answers like a new one, or with an error of its own. -/
inductive Connection where
  | live
  | dead (message : Str)
  deriving DecidableEq

def Connection.answer (outcome : Except Str (List ClientResponse)) : Connection → Except Str (List ClientResponse)
  | .live => outcome
  | .dead message => .error message

/-- The connection that is acquired, a new one where none is idle, and those that stay idle. -/
def draw (idle : List Connection) : Connection × List Connection := (idle.getLast?.getD .live, idle.dropLast)

/-- The result of `query_shard`, and the connection whose answer it is. -/
def queryShardOver (shardId : Nat) (outcome : Except Str (List ClientResponse)) (idle : List Connection) :
    Except FederatedError (List ClientResponse) × Connection :=
  match afterFirst shardId ((draw idle).1.answer outcome) with
  | .done result => (result, (draw idle).1)
  | .reconnect =>
    let second := (draw (draw idle).2).1
    (queryShardClient shardId (second.answer outcome), second)

/-- What the outcome of a new connection comes to. -/
def freshAnswer (shardId : Nat) : Except Str (List ClientResponse) → Except FederatedError (List ClientResponse)
  | .ok responses => .ok responses
  | .error message =>
    if isMissingTableError (shardQueryText shardId message) then .ok [] else .error (.shardQuery shardId message)

/-- The result is that of a new connection, and no error in it is of a dead one. -/
structure AnswersAfresh (shardId : Nat) (outcome : Except Str (List ClientResponse)) (idle : List Connection) : Prop where
  result : (queryShardOver shardId outcome idle).1 = freshAnswer shardId outcome
  source : ∀ e, (queryShardOver shardId outcome idle).1 = .error e → (queryShardOver shardId outcome idle).2 = .live

/-- The message is taken for a missing table. -/
def Missing (shardId : Nat) (message : Str) : Prop := isMissingTableError (shardQueryText shardId message) = true

/-- The message is taken for a broken connection. -/
def Broken (shardId : Nat) (message : Str) : Prop :=
  isConnectionError (shardQueryText shardId message) = true ∧ ¬ Missing shardId message

/-- A live connection at the end of the idle list may only be left for another live one. A dead one has to be taken
for broken and be followed by a live one, which then may not miss the table. -/
def DrawsAfresh (shardId : Nat) (outcome : Except Str (List ClientResponse)) (idle : List Connection) : Prop :=
  match (draw idle).1 with
  | .live => (∃ message, outcome = .error message ∧ Broken shardId message) → (draw (draw idle).2).1 = .live
  | .dead message =>
    (Missing shardId message ∧ freshAnswer shardId outcome = .ok []) ∨
      (Broken shardId message ∧ (draw (draw idle).2).1 = .live ∧
        ∀ message, outcome = .error message → ¬ Missing shardId message)

variable {shardId : Nat} {outcome : Except Str (List ClientResponse)} {idle : List Connection} {message : Str}

/-! ### One answer -/

theorem afterFirst_missing (missing : Missing shardId message) : afterFirst shardId (.error message) = .done (.ok []) := by
  unfold afterFirst
  exact if_pos missing

theorem afterFirst_broken (broken : Broken shardId message) : afterFirst shardId (.error message) = .reconnect := by
  unfold afterFirst
  exact (if_neg broken.2).trans (if_pos broken.1)

theorem afterFirst_other (present : ¬ Missing shardId message) (unbroken : ¬ Broken shardId message) :
    afterFirst shardId (.error message) = .done (.error (.shardQuery shardId message)) := by
  unfold afterFirst
  exact (if_neg present).trans (if_neg fun connection => unbroken ⟨connection, present⟩)

theorem freshAnswer_missing (missing : Missing shardId message) : freshAnswer shardId (.error message) = .ok [] :=
  if_pos missing

theorem freshAnswer_present (present : ¬ Missing shardId message) :
    freshAnswer shardId (.error message) = .error (.shardQuery shardId message) := if_neg present

/-- Without a broken connection the first answer comes to what a fresh one does. -/
theorem afterFirst_done (unbroken : ∀ message, outcome = .error message → ¬ Broken shardId message) :
    afterFirst shardId outcome = .done (freshAnswer shardId outcome) := by
  cases outcome with
  | ok responses => rfl
  | error message =>
    by_cases missing : Missing shardId message
    · rw [afterFirst_missing missing, freshAnswer_missing missing]
    · rw [afterFirst_other missing (unbroken message rfl), freshAnswer_present missing]

/-- The second answer comes to what a fresh one does unless it misses the table. -/
theorem queryShardClient_eq_iff : queryShardClient shardId outcome = freshAnswer shardId outcome ↔
    ∀ message, outcome = .error message → ¬ Missing shardId message := by
  cases outcome with
  | ok responses => exact ⟨fun _ => nofun, fun _ => rfl⟩
  | error message =>
    constructor
    · rintro same _ ⟨⟩ missing
      rw [freshAnswer_missing missing] at same
      cases same
    · intro present
      exact (freshAnswer_present (present message rfl)).symm

/-! ### Both answers -/

theorem queryShardOver_done {result : Except FederatedError (List ClientResponse)}
    (first : afterFirst shardId ((draw idle).1.answer outcome) = .done result) :
    queryShardOver shardId outcome idle = (result, (draw idle).1) := by
  rw [queryShardOver, first]

theorem queryShardOver_reconnect (first : afterFirst shardId ((draw idle).1.answer outcome) = .reconnect) :
    queryShardOver shardId outcome idle =
      (queryShardClient shardId ((draw (draw idle).2).1.answer outcome), (draw (draw idle).2).1) := by
  rw [queryShardOver, first]

/-- A dead connection that is asked second is answered from. -/
theorem not_answersAfresh_of_dead (first : afterFirst shardId ((draw idle).1.answer outcome) = .reconnect)
    (second : (draw (draw idle).2).1 = .dead message) : ¬ AnswersAfresh shardId outcome idle := by
  rintro ⟨_, source⟩
  rw [queryShardOver_reconnect first, second] at source
  cases source _ rfl

theorem answersAfresh_live (first : (draw idle).1 = .live) :
    AnswersAfresh shardId outcome idle ↔
      ((∃ message, outcome = .error message ∧ Broken shardId message) → (draw (draw idle).2).1 = .live) := by
  have answer : (draw idle).1.answer outcome = outcome := by rw [first]; rfl
  by_cases broken : ∃ message, outcome = .error message ∧ Broken shardId message
  · obtain ⟨message, rfl, breaks⟩ := broken
    have reconnects : afterFirst shardId ((draw idle).1.answer (.error message)) = .reconnect := by
      rw [answer, afterFirst_broken breaks]
    cases second : (draw (draw idle).2).1 with
    | dead other =>
      exact ⟨fun afresh => (not_answersAfresh_of_dead reconnects second afresh).elim,
        fun live => nomatch live ⟨message, rfl, breaks⟩⟩
    | live =>
      refine ⟨fun _ _ => rfl, fun _ => ?_⟩
      have asked := queryShardOver_reconnect reconnects
      rw [second] at asked
      constructor
      · rw [asked]
        exact (freshAnswer_present breaks.2).symm
      · intro e _
        rw [asked]
  · have done : afterFirst shardId ((draw idle).1.answer outcome) = .done (freshAnswer shardId outcome) := by
      rw [answer]
      exact afterFirst_done fun message same breaks => broken ⟨message, same, breaks⟩
    have asked := queryShardOver_done done
    refine ⟨fun _ breaks => (broken breaks).elim, fun _ => ⟨by rw [asked], fun e _ => by rw [asked, first]⟩⟩

theorem answersAfresh_dead (first : (draw idle).1 = .dead message) :
    AnswersAfresh shardId outcome idle ↔
      (Missing shardId message ∧ freshAnswer shardId outcome = .ok []) ∨
        (Broken shardId message ∧ (draw (draw idle).2).1 = .live ∧
          ∀ message, outcome = .error message → ¬ Missing shardId message) := by
  have answer : (draw idle).1.answer outcome = .error message := by rw [first]; rfl
  by_cases missing : Missing shardId message
  · have asked := queryShardOver_done (answer.symm ▸ afterFirst_missing missing)
    rw [or_iff_left fun other => other.1.2 missing, and_iff_right missing]
    constructor
    · rintro ⟨result, _⟩
      rw [← result, asked]
    · intro empty
      refine ⟨by rw [asked, empty], fun e failed => ?_⟩
      rw [asked] at failed
      cases failed
  rw [or_iff_right fun other => missing other.1]
  by_cases broken : Broken shardId message
  · have reconnects : afterFirst shardId ((draw idle).1.answer outcome) = .reconnect := by
      rw [answer, afterFirst_broken broken]
    rw [and_iff_right broken]
    cases second : (draw (draw idle).2).1 with
    | dead other =>
      exact ⟨fun afresh => (not_answersAfresh_of_dead reconnects second afresh).elim, fun live => nomatch live.1⟩
    | live =>
      have asked := queryShardOver_reconnect reconnects
      rw [second] at asked
      rw [and_iff_right rfl, ← queryShardClient_eq_iff]
      refine ⟨fun afresh => ?_, fun same => ⟨by rw [asked]; exact same, fun e _ => by rw [asked]⟩⟩
      have result := afresh.result
      rwa [asked] at result
  · have asked := queryShardOver_done (answer.symm ▸ afterFirst_other missing broken)
    refine ⟨fun afresh => ?_, fun other => (broken other.1).elim⟩
    have source := afresh.source
    rw [asked, first] at source
    cases source _ rfl

/-- `query_shard` answers as a fresh connection would exactly if it draws such connections. -/
theorem answersAfresh_iff (shardId : Nat) (outcome : Except Str (List ClientResponse)) (idle : List Connection) :
    AnswersAfresh shardId outcome idle ↔ DrawsAfresh shardId outcome idle := by
  unfold DrawsAfresh
  split
  · rename_i first
    exact answersAfresh_live first
  · rename_i first
    exact answersAfresh_dead first

/-- What a client says that the server has left. -/
def brokenPipe : Str := "IO error: Broken pipe (os error 32)".toList

def missingTable : Str := "ERROR: table does not exist [table=trades]".toList

/-- Of two dead connections the second answers, and behind one a missing table is an error. -/
theorem dead_connections_answer :
    ¬ AnswersAfresh 0 (.ok []) [.dead brokenPipe, .dead brokenPipe] ∧
      ¬ AnswersAfresh 0 (.error missingTable) [.dead brokenPipe] := by
  have broken : Broken 0 brokenPipe := by
    unfold Broken Missing
    decide +kernel
  have missing : Missing 0 missingTable := by
    unfold Missing
    decide +kernel
  have first : (draw [.dead brokenPipe]).1 = .dead brokenPipe := rfl
  refine ⟨not_answersAfresh_of_dead (afterFirst_broken broken) rfl, fun afresh => ?_⟩
  rcases (answersAfresh_dead first).mp afresh with ⟨missed, _⟩ | ⟨_, _, present⟩
  · exact broken.2 missed
  · exact present missingTable rfl missing

/-! ### The call in the pool -/

/-- An event of the call, whose client answers as its connection does. -/
def OfCall (state : PgWireClient → Connection) (outcome : Except Str (List ClientResponse)) (i : Nat) (s : QueryState) :
    QueryEvent → Prop
  | .permit j | .pop j | .connected j | .leave j | .dropPermit j | .reacquire j => j = i
  | .answer j answer => j = i ∧ ∃ call ∈ s.calls[i]?, ∃ client ∈ s.pool.occupant (.held call.handle),
    answer = (state client).answer outcome
  | .start .. | .connectFailed .. => False

def CallStep (state : PgWireClient → Connection) (outcome : Except Str (List ClientResponse)) (i : Nat)
    (s t : QueryState) : Prop := ∃ e, OfCall state outcome i s e ∧ s.step e = some t

section
variable {state : PgWireClient → Connection} {s : QueryState} {i : Nat} {call : ShardCall}

theorem handle_moves_to {s : PoolState} {h : Nat} {event : HandleEvent} {stage stage' : Stage} {pool : ShardPgPool}
    (found : s.handles[h]? = some ⟨shardId, stage⟩)
    (moved : handleStep s.pool s.opened shardId event stage = some (pool, stage')) :
    s.handle h event = some (s.advanced h event pool ⟨shardId, stage'⟩) := by
  unfold PoolState.handle
  rw [found]
  dsimp only
  rw [moved]

theorem onClient_keeps {event : HandleEvent} {pool : PoolState} (found : s.calls[i]? = some call)
    (moved : s.pool.handle call.handle event = some pool) : s.onClient i event (·.stage) = some { s with pool } := by
  obtain ⟨inside, here⟩ := List.getElem?_eq_some_iff.mp found
  have same : s.calls.set i call = s.calls := by rw [← here, List.set_getElem_self]
  unfold QueryState.onClient
  rw [found]
  dsimp only
  rw [moved, Option.map_some, same]

/-- The call is at this stage with the pool. -/
structure At (s : QueryState) (i : Nat) (call : ShardCall) (stage : Stage) : Prop where
  found : s.calls[i]? = some call
  handle : s.pool.handles[call.handle]? = some ⟨call.shardId, stage⟩

theorem At.moves {event : HandleEvent} {stage stage' : Stage} {pool : ShardPgPool} (here : At s i call stage)
    (moved : handleStep s.pool.pool s.pool.opened call.shardId event stage = some (pool, stage')) :
    ∃ t, s.onClient i event (·.stage) = some t ∧ At t i call stage' ∧ t.pool.pool = pool ∧
      t.pool.opened = if event = .connected then s.pool.opened + 1 else s.pool.opened := by
  refine ⟨_, onClient_keeps here.found (handle_moves_to here.handle moved), ⟨here.found, ?_⟩, rfl, rfl⟩
  dsimp only [PoolState.advanced]
  rw [Machine.getElem?_replaced here.handle, if_pos rfl]

/-- The call gets a client: the last idle one, or a new one. -/
theorem acquires (fresh : ∀ c, s.pool.opened ≤ c → state c = .live) (waits : At s i call .waiting)
    (permit : 0 < s.pool.pool.permits call.shardId) :
    ∃ t client, Relation.ReflTransGen (CallStep state outcome i) s t ∧ At t i call (.held client) ∧
      t.pool.pool.idle call.shardId = (s.pool.pool.idle call.shardId).dropLast ∧
      state client = (draw ((s.pool.pool.idle call.shardId).map state)).1 ∧ s.pool.opened ≤ t.pool.opened := by
  have granted : handleStep s.pool.pool s.pool.opened call.shardId .permit .waiting =
      some (s.pool.pool.setPermits call.shardId (s.pool.pool.permits call.shardId - 1), .permitted) := if_pos permit
  obtain ⟨t, first, permitted, pool, opened⟩ := waits.moves granted
  have afterPermit := Relation.ReflTransGen.single (r := CallStep state outcome i) ⟨.permit i, rfl, first⟩
  have idle : t.pool.pool.idle call.shardId = s.pool.pool.idle call.shardId := by rw [pool]; rfl
  cases last : (s.pool.pool.idle call.shardId).getLast? with
  | some client =>
    have popped : handleStep t.pool.pool t.pool.opened call.shardId .pop .permitted =
        some (t.pool.pool.setIdle call.shardId (s.pool.pool.idle call.shardId).dropLast, .held client) := by
      simp only [handleStep, idle, last]
    obtain ⟨u, second, held, pool, same⟩ := permitted.moves popped
    refine ⟨u, client, afterPermit.tail ⟨.pop i, rfl, second⟩, held, ?_, ?_, (same.trans opened).ge⟩
    · rw [pool, ShardPgPool.setIdle_idle, if_pos rfl]
    · rw [draw, List.getLast?_map, last]
      rfl
  | none =>
    have empty : s.pool.pool.idle call.shardId = [] := List.getLast?_eq_none_iff.mp last
    have popped : handleStep t.pool.pool t.pool.opened call.shardId .pop .permitted =
        some (t.pool.pool, .connecting) := by
      simp only [handleStep, idle, last]
    obtain ⟨u, second, connecting, pool, same⟩ := permitted.moves popped
    have connected : handleStep u.pool.pool u.pool.opened call.shardId .connected .connecting =
        some (u.pool.pool, .held u.pool.opened) := rfl
    obtain ⟨v, third, held, kept, more⟩ := connecting.moves connected
    have before : u.pool.opened = s.pool.opened := same.trans opened
    refine ⟨v, u.pool.opened, (afterPermit.tail ⟨.pop i, rfl, second⟩).tail ⟨.connected i, rfl, third⟩,
      held, ?_, ?_, ?_⟩
    · rw [kept, pool, idle, empty]
      rfl
    · rw [empty, fresh _ before.ge]
      rfl
    · rw [more, if_pos rfl, before]
      exact Nat.le_succ _

theorem At.occupant {client : PgWireClient} (here : At s i call (.held client)) :
    s.pool.occupant (.held call.handle) = some client := by
  rw [PoolState.occupant, here.handle]
  rfl

theorem At.answered {client : PgWireClient} {attempt : Attempt} (here : At s i call (.held client))
    (asking : call.stage = .asking attempt) (answer : Except Str (List ClientResponse)) :
    s.answered i answer =
      match afterAnswer call.shardId answer call.caller attempt with
      | .done result =>
        some { s with
          calls := s.calls.set i { call with stage := .returning result }
          broken := if connectionError call.shardId answer then client :: s.broken else s.broken }
      | .reconnect =>
        (s.pool.handle call.handle .invalidate).map fun pool =>
          { pool
            calls := s.calls.set i { call with stage := .reconnecting }
            broken := if connectionError call.shardId answer then client :: s.broken else s.broken } := by
  unfold QueryState.answered
  rw [here.found]
  dsimp only
  rw [asking]
  have occupant := here.occupant
  generalize s.pool.occupant (.held call.handle) = held at occupant ⊢
  subst occupant
  rfl

theorem At.ofCall {client : PgWireClient} (here : At s i call (.held client)) :
    OfCall state outcome i s (.answer i ((state client).answer outcome)) :=
  ⟨rfl, call, here.found, client, here.occupant, rfl⟩

/-- An answer that decides the call is its result. -/
theorem answers_done {client : PgWireClient} {attempt : Attempt}
    {result : Except FederatedError (List ClientResponse)} (here : At s i call (.held client))
    (asking : call.stage = .asking attempt)
    (decided : afterAnswer call.shardId ((state client).answer outcome) call.caller attempt = .done result) :
    ∃ t, CallStep state outcome i s t ∧ t.calls[i]? = some { call with stage := .returning result } := by
  have answered := here.answered asking ((state client).answer outcome)
  rw [decided] at answered
  refine ⟨_, ⟨_, here.ofCall, answered⟩, ?_⟩
  dsimp only
  rw [Machine.getElem?_replaced here.found, if_pos rfl]

theorem known_of_permit {pool : ShardPgPool} (permit : 0 < pool.permits shardId) :
    (pool.semaphores.get shardId).isSome = true := by
  unfold ShardPgPool.permits at permit
  cases found : pool.semaphores.get shardId with
  | some n => rfl
  | none =>
    rw [found] at permit
    exact absurd permit (Nat.lt_irrefl 0)

/-- A call that lost its client waits for another one. -/
theorem reacquires (here : At s i call .invalidated) (reconnecting : call.stage = .reconnecting) :
    ∃ t handle, Relation.ReflTransGen (CallStep state outcome i) s t ∧
      At t i { call with handle, stage := .asking .retry } .waiting ∧ 0 < t.pool.pool.permits call.shardId ∧
      t.pool.pool.idle call.shardId = s.pool.pool.idle call.shardId ∧ t.pool.opened = s.pool.opened := by
  have dropped : handleStep s.pool.pool s.pool.opened call.shardId .drop .invalidated = some (s.pool.pool, .returned) :=
    rfl
  obtain ⟨t, left, returned, pool, opened⟩ := here.moves dropped
  have leaves : s.leave i = some t := by
    unfold QueryState.leave
    rw [here.found, Option.map_some, reconnecting]
    exact left
  have released : handleStep t.pool.pool t.pool.opened call.shardId .dropPermit .returned =
      some (t.pool.pool.setPermits call.shardId (t.pool.pool.permits call.shardId + 1), .finished) := rfl
  obtain ⟨u, freed, finished, pool', opened'⟩ := returned.moves released
  have permit : 0 < u.pool.pool.permits call.shardId := by
    rw [pool', ShardPgPool.setPermits_permits, if_pos rfl]
    exact Nat.succ_pos _
  have again : u.reacquire i = some
      { u with
        pool := { u.pool with handles := u.pool.handles ++ [⟨call.shardId, .waiting⟩] }
        calls := u.calls.set i { call with handle := u.pool.handles.length, stage := .asking .retry } } := by
    unfold QueryState.reacquire
    rw [finished.found]
    dsimp only
    rw [if_pos ⟨reconnecting, by rw [finished.handle]; rfl⟩, PoolState.acquire, if_pos (known_of_permit permit)]
    rfl
  have first := Relation.ReflTransGen.single (r := CallStep state outcome i) ⟨.leave i, rfl, leaves⟩
  refine ⟨_, u.pool.handles.length, (first.tail ⟨.dropPermit i, rfl, freed⟩).tail ⟨.reacquire i, rfl, again⟩,
    ⟨?_, ?_⟩, permit, ?_, opened'.trans opened⟩
  · dsimp only
    rw [Machine.getElem?_replaced finished.found, if_pos rfl]
  · exact List.getElem?_concat_length
  · change u.pool.pool.idle call.shardId = _
    rw [pool', ShardPgPool.setPermits_idle, pool]

/-- An answer that reads as a broken connection makes the call wait for another client. -/
theorem answers_reconnect {client : PgWireClient} {attempt : Attempt} (here : At s i call (.held client))
    (asking : call.stage = .asking attempt)
    (decided : afterAnswer call.shardId ((state client).answer outcome) call.caller attempt = .reconnect) :
    ∃ t, CallStep state outcome i s t ∧ At t i { call with stage := .reconnecting } .invalidated ∧
      t.pool.pool = s.pool.pool ∧ t.pool.opened = s.pool.opened := by
  have answered := here.answered asking ((state client).answer outcome)
  have invalidated : handleStep s.pool.pool s.pool.opened call.shardId .invalidate (.held client) =
      some (s.pool.pool, .invalidated) := rfl
  rw [decided, handle_moves_to here.handle invalidated] at answered
  refine ⟨_, ⟨_, here.ofCall, answered⟩, ⟨?_, ?_⟩, rfl, rfl⟩
  · dsimp only
    rw [Machine.getElem?_replaced here.found, if_pos rfl]
  · dsimp only [PoolState.advanced]
    rw [Machine.getElem?_replaced here.handle, if_pos rfl]

/-- A call that has the pool to itself returns what is said of it over the states of the idle connections. -/
theorem queryShard_returns {begun : QueryState} (started : s.step (.start .queryShard shardId) = some begun)
    (fresh : ∀ c, s.pool.opened ≤ c → state c = .live) (permit : 0 < s.pool.pool.permits shardId) :
    ∃ t call, Relation.ReflTransGen (CallStep state outcome s.calls.length) begun t ∧
      t.calls[s.calls.length]? = some call ∧
      call.stage = .returning (queryShardOver shardId outcome ((s.pool.pool.idle shardId).map state)).1 := by
  obtain ⟨pool, acquired, rfl⟩ := Option.map_eq_some_iff.mp started
  rw [PoolState.acquire_some acquired]
  have waits : At ⟨{ s.pool with handles := s.pool.handles ++ [⟨shardId, .waiting⟩] },
      s.calls ++ [⟨.queryShard, shardId, s.pool.handles.length, .asking .first⟩], s.broken⟩ s.calls.length
      ⟨.queryShard, shardId, s.pool.handles.length, .asking .first⟩ .waiting :=
    ⟨List.getElem?_concat_length, List.getElem?_concat_length⟩
  obtain ⟨t, client, run, held, idle, drawn, opened⟩ := acquires (by exact fresh) waits (by exact permit)
  have drawn : state client = (draw ((s.pool.pool.idle shardId).map state)).1 := drawn
  cases decided : afterFirst shardId ((state client).answer outcome) with
  | done result =>
    obtain ⟨u, answered, found⟩ := answers_done held rfl decided
    refine ⟨u, _, run.tail answered, found, ?_⟩
    rw [queryShardOver_done (drawn ▸ decided)]
  | reconnect =>
    obtain ⟨u, answered, invalidated, pool, same⟩ := answers_reconnect held rfl decided
    obtain ⟨v, handle, again, waits, permit, kept, same'⟩ := reacquires invalidated rfl
    have fresh : ∀ c, v.pool.opened ≤ c → state c = .live := by
      intro c later
      rw [same', same] at later
      exact fresh c (opened.trans later)
    obtain ⟨w, second, run', held, _, drawn', _⟩ := acquires fresh waits permit
    obtain ⟨x, answered', found⟩ := answers_done held rfl rfl
    refine ⟨x, _, ((((run.tail answered).trans again).trans run').tail answered'), found, ?_⟩
    have idle : t.pool.pool.idle shardId = (s.pool.pool.idle shardId).dropLast := idle
    have kept : v.pool.pool.idle shardId = u.pool.pool.idle shardId := kept
    have drawn' : state second = (draw ((v.pool.pool.idle shardId).map state)).1 := drawn'
    have rest : (v.pool.pool.idle shardId).map state = (draw ((s.pool.pool.idle shardId).map state)).2 := by
      rw [kept, pool, idle, draw, List.map_dropLast]
    rw [queryShardOver_reconnect (drawn ▸ decided), ← rest, ← drawn']

end

end QuestRouter.Federated
