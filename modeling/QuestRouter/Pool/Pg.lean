import Mathlib.Data.List.Sort
import QuestRouter.Config
import QuestRouter.Data.Machine

/-!
# Shard connection pool

`acquire` takes a permit of the shard, then an idle client or a new connection. A pooled client that is
dropped goes back to the idle list unless it was invalidated, and its permit is given back after it.
-/

namespace QuestRouter.Pool
open Data

/-- A connection, numbered in the order of opening. -/
abbrev PgWireClient := Nat

structure ShardPgPool where
  shards : HashMap Nat ShardConfig
  maxPerShard : Nat
  clients : HashMap Nat (List PgWireClient)
  /-- The permits that nobody holds. -/
  semaphores : HashMap Nat Nat

namespace ShardPgPool

def new (shards : List ShardConfig) (maxPerShard : Nat) : ShardPgPool :=
  { shards := .collect (shards.map fun s => (s.id, s))
    maxPerShard := max maxPerShard 1
    clients := ∅
    semaphores := .collect (shards.map fun s => (s.id, max maxPerShard 1)) }

def shardIds (pool : ShardPgPool) : List Nat := pool.shards.keys.insertionSort (· ≤ ·)

def idle (pool : ShardPgPool) (shardId : Nat) : List PgWireClient := (pool.clients.get shardId).getD []

def permits (pool : ShardPgPool) (shardId : Nat) : Nat := (pool.semaphores.get shardId).getD 0

def setIdle (pool : ShardPgPool) (shardId : Nat) (idle : List PgWireClient) : ShardPgPool :=
  { pool with clients := pool.clients.insert shardId idle }

def setPermits (pool : ShardPgPool) (shardId permits : Nat) : ShardPgPool :=
  { pool with semaphores := pool.semaphores.insert shardId permits }

def release (pool : ShardPgPool) (shardId : Nat) (client : PgWireClient) : ShardPgPool :=
  let vec := pool.idle shardId
  pool.setIdle shardId (if vec.length < pool.maxPerShard then vec ++ [client] else vec)

@[simp] theorem setIdle_maxPerShard (pool : ShardPgPool) (id : Nat) (vec : List PgWireClient) :
    (pool.setIdle id vec).maxPerShard = pool.maxPerShard := rfl

@[simp] theorem setIdle_permits (pool : ShardPgPool) (id other : Nat) (vec : List PgWireClient) :
    (pool.setIdle id vec).permits other = pool.permits other := rfl

theorem setIdle_idle (pool : ShardPgPool) (id other : Nat) (vec : List PgWireClient) :
    (pool.setIdle id vec).idle other = if other = id then vec else pool.idle other := by
  unfold idle setIdle
  split
  · rename_i same
    rw [same, HashMap.get_insert, Option.getD_some]
  · rename_i different
    rw [HashMap.get_insert_ne _ _ different]

@[simp] theorem setPermits_maxPerShard (pool : ShardPgPool) (id n : Nat) :
    (pool.setPermits id n).maxPerShard = pool.maxPerShard := rfl

@[simp] theorem setPermits_idle (pool : ShardPgPool) (id n other : Nat) :
    (pool.setPermits id n).idle other = pool.idle other := rfl

theorem setPermits_permits (pool : ShardPgPool) (id n other : Nat) :
    (pool.setPermits id n).permits other = if other = id then n else pool.permits other := by
  unfold permits setPermits
  split
  · rename_i same
    rw [same, HashMap.get_insert, Option.getD_some]
  · rename_i different
    rw [HashMap.get_insert_ne _ _ different]

end ShardPgPool

/-! ### Callers -/

/-- How far a caller of `acquire` is with its client. -/
inductive Stage where
  | waiting
  | permitted
  | connecting
  | held (client : PgWireClient)
  | invalidated
  /-- The client is gone, or there was none; the permit is still held. -/
  | returned
  | finished
  deriving DecidableEq, Repr

def Stage.holdsPermit : Stage → Bool
  | .waiting | .finished => false
  | _ => true

/-- A connection is open, or being opened, for the caller. -/
def Stage.isOpen : Stage → Bool
  | .connecting | .held _ => true
  | _ => false

structure Handle where
  shardId : Nat
  stage : Stage
  deriving DecidableEq, Repr

/-- What a caller does next, or what its connection attempt comes to. -/
inductive HandleEvent where
  | permit
  | pop
  | connected
  | connectFailed
  | query
  | invalidate
  | drop
  | dropPermit
  deriving DecidableEq, Repr

/-- One step of one caller; `fresh` is the next connection to be opened. -/
def handleStep (pool : ShardPgPool) (fresh : PgWireClient) (shardId : Nat) :
    HandleEvent → Stage → Option (ShardPgPool × Stage)
  | .permit, .waiting =>
    if 0 < pool.permits shardId then
      some (pool.setPermits shardId (pool.permits shardId - 1), .permitted)
    else none
  | .pop, .permitted =>
    match (pool.idle shardId).getLast? with
    | some client => some (pool.setIdle shardId (pool.idle shardId).dropLast, .held client)
    | none => some (pool, .connecting)
  | .connected, .connecting => some (pool, .held fresh)
  | .connectFailed, .connecting => some (pool, .returned)
  | .query, .held client => some (pool, .held client)
  | .query, .invalidated => some (pool, .invalidated)
  | .invalidate, .held _ => some (pool, .invalidated)
  | .invalidate, .invalidated => some (pool, .invalidated)
  -- the client is released before the permit is dropped
  | .drop, .held client => some (pool.release shardId client, .returned)
  | .drop, .invalidated => some (pool, .returned)
  | .dropPermit, .returned => some (pool.setPermits shardId (pool.permits shardId + 1), .finished)
  | _, _ => none

structure PoolState where
  pool : ShardPgPool
  handles : List Handle
  /-- How many connections were opened so far. -/
  opened : Nat

inductive PoolEvent where
  | acquire (shardId : Nat)
  | handle (i : Nat) (event : HandleEvent)
  deriving DecidableEq, Repr

namespace PoolState

def start (shards : List ShardConfig) (maxPerShard : Nat) : PoolState := ⟨.new shards maxPerShard, [], 0⟩

/-- A shard without a semaphore is unknown: the call fails and leaves the pool as it is. -/
def acquire (s : PoolState) (shardId : Nat) : Option PoolState :=
  if (s.pool.semaphores.get shardId).isSome then
    some { s with handles := s.handles ++ [⟨shardId, .waiting⟩] }
  else none

/-- The caller is in this stage now, and has left the pool like this. -/
def advanced (s : PoolState) (i : Nat) (event : HandleEvent) (pool : ShardPgPool) (h : Handle) : PoolState :=
  { pool
    handles := s.handles.set i h
    opened := if event = .connected then s.opened + 1 else s.opened }

def handle (s : PoolState) (i : Nat) (event : HandleEvent) : Option PoolState :=
  match s.handles[i]? with
  | none => none
  | some h =>
    match handleStep s.pool s.opened h.shardId event h.stage with
    | none => none
    | some (pool, stage) => some (s.advanced i event pool ⟨h.shardId, stage⟩)

def step (s : PoolState) : PoolEvent → Option PoolState
  | .acquire shardId => s.acquire shardId
  | .handle i event => s.handle i event

/-- The connections to a shard that are idle, held by a caller or being opened. -/
def openConnections (s : PoolState) (shardId : Nat) : Nat :=
  (s.pool.idle shardId).length + s.handles.countP fun h => h.shardId = shardId && h.stage.isOpen

/-! ### What a step does -/

theorem acquire_some {s t : PoolState} {shardId : Nat} (h : s.acquire shardId = some t) :
    t = { s with handles := s.handles ++ [⟨shardId, .waiting⟩] } := by
  unfold acquire at h
  split at h
  · cases h; rfl
  · cases h

theorem handle_some {s t : PoolState} {i : Nat} {event : HandleEvent} (h : s.handle i event = some t) :
    ∃ hd pool stage, s.handles[i]? = some hd ∧
      handleStep s.pool s.opened hd.shardId event hd.stage = some (pool, stage) ∧
      t = s.advanced i event pool ⟨hd.shardId, stage⟩ := by
  unfold handle at h
  split at h
  · cases h
  rename_i hd found
  split at h
  · cases h
  rename_i pool stage moved
  cases h
  exact ⟨hd, pool, stage, found, moved, rfl⟩

end PoolState
end QuestRouter.Pool
