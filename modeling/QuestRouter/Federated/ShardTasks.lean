import QuestRouter.Federated.Arrow
import QuestRouter.Pool.Limit
import QuestRouter.Pool.Places

/-!
# Shard query tasks

Any number of calls of `query_shard` and tasks of `query_all_shards` share the pool. Each acquires a client,
asks, and drops the client; only the first client of `query_shard` is invalidated, and only for a connection
error that does not also read as a missing table.
-/

namespace QuestRouter.Federated
open Text Data Pool

inductive Caller where
  | queryShard
  | queryAllShards
  deriving DecidableEq

inductive Attempt where
  | first
  | retry
  deriving DecidableEq

inductive CallStage where
  | asking (attempt : Attempt)
  /-- The first client is invalidated; it goes before the second is acquired. -/
  | reconnecting
  | returning (result : Except FederatedError (List ClientResponse))
  deriving DecidableEq

structure ShardCall where
  caller : Caller
  shardId : Nat
  /-- The handle of its client in the pool. -/
  handle : Nat
  stage : CallStage
  deriving DecidableEq

inductive QueryEvent where
  | start (caller : Caller) (shardId : Nat)
  | permit (i : Nat)
  | pop (i : Nat)
  | connected (i : Nat)
  | connectFailed (i : Nat) (message : Str)
  | answer (i : Nat) (answer : Except Str (List ClientResponse))
  | leave (i : Nat)
  | dropPermit (i : Nat)
  | reacquire (i : Nat)

structure QueryState where
  pool : PoolState
  calls : List ShardCall
  /-- The clients that answered with a connection error. -/
  broken : List PgWireClient

def connectionError (shardId : Nat) : Except Str (List ClientResponse) → Bool
  | .ok _ => false
  | .error message => Arrow.isConnectionError (shardQueryText shardId message)

def afterAnswer (shardId : Nat) (answer : Except Str (List ClientResponse)) : Caller → Attempt → Arrow.AfterAnswer
  | .queryShard, .first => Arrow.afterFirst shardId answer
  | .queryShard, .retry => .done (Arrow.queryShardClient shardId answer)
  | .queryAllShards, _ => .done (Arrow.fanOutAnswer shardId answer)

namespace QueryState

def start (shards : List ShardConfig) (maxPerShard : Nat) : QueryState := ⟨.start shards maxPerShard, [], []⟩

/-- A step of the call's client in the pool. -/
def onClient (s : QueryState) (i : Nat) (event : HandleEvent) (next : ShardCall → CallStage) :
    Option QueryState :=
  match s.calls[i]? with
  | none => none
  | some call =>
    (s.pool.handle call.handle event).map fun pool =>
      { s with pool, calls := s.calls.set i { call with stage := next call } }

def startCall (s : QueryState) (caller : Caller) (shardId : Nat) : Option QueryState :=
  (s.pool.acquire shardId).map fun pool =>
    { s with pool, calls := s.calls ++ [⟨caller, shardId, s.pool.handles.length, .asking .first⟩] }

def answered (s : QueryState) (i : Nat) (answer : Except Str (List ClientResponse)) : Option QueryState :=
  match s.calls[i]? with
  | none => none
  | some call =>
    match call.stage, s.pool.occupant (.held call.handle) with
    | .asking attempt, some client =>
      let broken := if connectionError call.shardId answer then client :: s.broken else s.broken
      match afterAnswer call.shardId answer call.caller attempt with
      | .done result => some { s with calls := s.calls.set i { call with stage := .returning result }, broken }
      | .reconnect =>
        (s.pool.handle call.handle .invalidate).map fun pool =>
          { pool, calls := s.calls.set i { call with stage := .reconnecting }, broken }
    | _, _ => none

def reacquire (s : QueryState) (i : Nat) : Option QueryState :=
  match s.calls[i]? with
  | none => none
  | some call =>
    if call.stage = .reconnecting ∧ (s.pool.handles[call.handle]?).map Handle.stage = some .finished then
      (s.pool.acquire call.shardId).map fun pool =>
        { s with
          pool
          calls := s.calls.set i { call with handle := s.pool.handles.length, stage := .asking .retry } }
    else none

/-- The client goes out of scope once the answer is known, or was invalidated. -/
def leave (s : QueryState) (i : Nat) : Option QueryState :=
  match (s.calls[i]?).map ShardCall.stage with
  | some (.asking _) => none
  | _ => s.onClient i .drop (·.stage)

def step (s : QueryState) : QueryEvent → Option QueryState
  | .start caller shardId => s.startCall caller shardId
  | .permit i => s.onClient i .permit (·.stage)
  | .pop i => s.onClient i .pop (·.stage)
  | .connected i => s.onClient i .connected (·.stage)
  | .connectFailed i message =>
    s.onClient i .connectFailed fun call => .returning (.error (.shardQuery call.shardId message))
  | .answer i answer => s.answered i answer
  | .leave i => s.leave i
  | .dropPermit i => s.onClient i .dropPermit (·.stage)
  | .reacquire i => s.reacquire i

/-! ### What a step does -/

theorem onClient_some {s t : QueryState} {i : Nat} {event : HandleEvent} {next : ShardCall → CallStage}
    (h : s.onClient i event next = some t) :
    ∃ call pool, s.calls[i]? = some call ∧ s.pool.handle call.handle event = some pool ∧
      t = { s with pool, calls := s.calls.set i { call with stage := next call } } := by
  unfold onClient at h
  split at h
  · cases h
  · rename_i call found
    obtain ⟨pool, moved, rfl⟩ := Option.map_eq_some_iff.mp h
    exact ⟨call, pool, found, moved, rfl⟩

theorem leave_some {s t : QueryState} {i : Nat} (h : s.leave i = some t) :
    s.onClient i .drop (·.stage) = some t := by
  unfold leave at h
  split at h
  · cases h
  · exact h

/-- An answer is of the client held, which is left as it is or, to reconnect, invalidated. -/
theorem answered_some {s t : QueryState} {i : Nat} {answer : Except Str (List ClientResponse)}
    (h : s.answered i answer = some t) :
    ∃ call attempt client, s.calls[i]? = some call ∧ call.stage = .asking attempt ∧
      s.pool.occupant (.held call.handle) = some client ∧
      t.broken = (if connectionError call.shardId answer then client :: s.broken else s.broken) ∧
      ((∃ result, afterAnswer call.shardId answer call.caller attempt = .done result ∧ t.pool = s.pool ∧
          t.calls = s.calls.set i { call with stage := .returning result }) ∨
        (afterAnswer call.shardId answer call.caller attempt = .reconnect ∧
          s.pool.handle call.handle .invalidate = some t.pool)) := by
  unfold answered at h
  split at h
  · cases h
  rename_i call found
  split at h
  · rename_i attempt client stage held
    dsimp only at h
    split at h
    · rename_i result decided
      cases h
      exact ⟨call, attempt, client, found, stage, held, rfl, .inl ⟨result, decided, rfl, rfl⟩⟩
    · rename_i decided
      obtain ⟨pool, moved, rfl⟩ := Option.map_eq_some_iff.mp h
      exact ⟨call, attempt, client, found, stage, held, rfl, .inr ⟨decided, moved⟩⟩
  · cases h

/-- A step of the tasks is at most one step of the pool. -/
theorem step_pool {s t : QueryState} {e : QueryEvent} (h : s.step e = some t) :
    t.pool = s.pool ∨ ∃ event, s.pool.step event = some t.pool := by
  have client : ∀ {i event next}, s.onClient i event next = some t → ∃ event, s.pool.step event = some t.pool := by
    intro i event next moved
    obtain ⟨call, pool, _, handled, rfl⟩ := onClient_some moved
    exact ⟨.handle call.handle event, handled⟩
  cases e with
  | start caller shardId =>
    obtain ⟨pool, acquired, rfl⟩ := Option.map_eq_some_iff.mp h
    exact .inr ⟨.acquire shardId, acquired⟩
  | permit i => exact .inr (client h)
  | pop i => exact .inr (client h)
  | connected i => exact .inr (client h)
  | connectFailed i message => exact .inr (client h)
  | answer i answer =>
    obtain ⟨call, _, _, _, _, _, _, ⟨_, _, same, _⟩ | ⟨_, moved⟩⟩ := answered_some h
    · exact .inl same
    · exact .inr ⟨.handle call.handle .invalidate, moved⟩
  | leave i => exact .inr (client (leave_some h))
  | dropPermit i => exact .inr (client h)
  | reacquire i =>
    change s.reacquire i = some t at h
    unfold reacquire at h
    split at h
    · cases h
    rename_i call found
    split at h
    · obtain ⟨pool, acquired, rfl⟩ := Option.map_eq_some_iff.mp h
      exact .inr ⟨.acquire call.shardId, acquired⟩
    · cases h

/-- Only an answer observes an error. -/
theorem step_broken {s t : QueryState} {e : QueryEvent} (h : s.step e = some t)
    (quiet : ∀ i answer, e ≠ .answer i answer) : t.broken = s.broken := by
  have client : ∀ {i event next}, s.onClient i event next = some t → t.broken = s.broken := by
    intro i event next moved
    obtain ⟨_, _, _, _, rfl⟩ := onClient_some moved
    rfl
  cases e with
  | start caller shardId =>
    obtain ⟨_, _, rfl⟩ := Option.map_eq_some_iff.mp h
    rfl
  | permit i => exact client h
  | pop i => exact client h
  | connected i => exact client h
  | connectFailed i message => exact client h
  | answer i answer => exact (quiet i answer rfl).elim
  | leave i => exact client (leave_some h)
  | dropPermit i => exact client h
  | reacquire i =>
    change s.reacquire i = some t at h
    unfold reacquire at h
    split at h
    · cases h
    split at h
    · obtain ⟨_, _, rfl⟩ := Option.map_eq_some_iff.mp h
      rfl
    · cases h

end QueryState
end QuestRouter.Federated
