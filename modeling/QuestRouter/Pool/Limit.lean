import QuestRouter.Pool.Pg

/-!
# Connection limit

A step of a caller moves a permit between the semaphore and the caller, and opens a connection only for a
caller with a permit that found the idle list empty. So the permits held bound the connections.
-/

namespace QuestRouter.Pool
open Data

/-- How many callers of a shard are in such a stage. -/
def PoolState.count (s : PoolState) (p : Stage → Bool) (shardId : Nat) : Nat :=
  s.handles.countP fun h => h.shardId = shardId && p h.stage

theorem PoolState.count_replaced {s : PoolState} (p : Stage → Bool) {i : Nat} {h : Handle}
    (found : s.handles[i]? = some h) (event : HandleEvent) (pool : ShardPgPool) (stage : Stage) (id : Nat) :
    (s.advanced i event pool ⟨h.shardId, stage⟩).count p id +
        (decide (h.shardId = id) && p h.stage).toNat =
      s.count p id + (decide (h.shardId = id) && p stage).toNat :=
  Machine.countP_replaced (fun h : Handle => h.shardId = id && p h.stage) found ⟨h.shardId, stage⟩

/-! ### One caller -/

variable {pool pool' : ShardPgPool} {fresh : PgWireClient} {shardId : Nat} {event : HandleEvent}
  {stage stage' : Stage}

theorem release_length (pool : ShardPgPool) (shardId : Nat) (client : PgWireClient) :
    ((pool.release shardId client).idle shardId).length ≤ (pool.idle shardId).length + 1 := by
  unfold ShardPgPool.release
  rw [ShardPgPool.setIdle_idle, if_pos rfl]
  split <;> simp

/-- A step of a caller leaves the limit, the idle clients and the permits of other shards. -/
theorem handleStep_frame (moved : handleStep pool fresh shardId event stage = some (pool', stage')) :
    pool'.maxPerShard = pool.maxPerShard ∧
      ∀ other, other ≠ shardId → pool'.idle other = pool.idle other ∧ pool'.permits other = pool.permits other := by
  unfold handleStep at moved
  split at moved
  case h_1 =>
    split at moved
    · cases moved
      exact ⟨rfl, fun other different => ⟨rfl, by rw [ShardPgPool.setPermits_permits, if_neg different]⟩⟩
    · cases moved
  case h_2 =>
    split at moved
    · cases moved
      exact ⟨rfl, fun other different => ⟨by rw [ShardPgPool.setIdle_idle, if_neg different], rfl⟩⟩
    · cases moved
      exact ⟨rfl, fun _ _ => ⟨rfl, rfl⟩⟩
  case h_9 =>
    cases moved
    exact ⟨rfl, fun other different =>
      ⟨by rw [ShardPgPool.release, ShardPgPool.setIdle_idle, if_neg different], rfl⟩⟩
  case h_11 =>
    cases moved
    exact ⟨rfl, fun other different => ⟨rfl, by rw [ShardPgPool.setPermits_permits, if_neg different]⟩⟩
  all_goals
    cases moved
    try exact ⟨rfl, fun _ _ => ⟨rfl, rfl⟩⟩

/-- Permits are neither lost nor made. -/
theorem handleStep_permits (moved : handleStep pool fresh shardId event stage = some (pool', stage')) :
    pool'.permits shardId + stage'.holdsPermit.toNat = pool.permits shardId + stage.holdsPermit.toNat := by
  unfold handleStep at moved
  split at moved
  case h_1 =>
    split at moved
    · rename_i available
      cases moved
      rw [ShardPgPool.setPermits_permits, if_pos rfl]
      simp only [Stage.holdsPermit, Bool.toNat_true, Bool.toNat_false]
      omega
    · cases moved
  case h_2 =>
    split at moved <;> cases moved <;> rfl
  case h_11 =>
    cases moved
    rw [ShardPgPool.setPermits_permits, if_pos rfl]
    rfl
  all_goals
    cases moved
    try rfl

/-- A connection more than before is opened only when no client is idle. -/
theorem handleStep_open (moved : handleStep pool fresh shardId event stage = some (pool', stage')) :
    (pool'.idle shardId).length + stage'.isOpen.toNat ≤ (pool.idle shardId).length + stage.isOpen.toNat ∨
      pool'.idle shardId = [] := by
  unfold handleStep at moved
  split at moved
  case h_1 =>
    split at moved <;> cases moved
    exact .inl (Nat.le_refl _)
  case h_2 =>
    split at moved
    · rename_i client last
      cases moved
      have some : pool.idle shardId ≠ [] := by
        intro empty
        rw [empty] at last
        cases last
      have positive := List.length_pos_iff.mpr some
      rw [ShardPgPool.setIdle_idle, if_pos rfl, List.length_dropLast]
      simp only [Stage.isOpen, Bool.toNat_true, Bool.toNat_false]
      omega
    · rename_i last
      cases moved
      exact .inr (List.getLast?_eq_none_iff.mp last)
  case h_9 =>
    cases moved
    exact .inl (release_length _ _ _)
  all_goals
    cases moved
    try exact .inl (by simp [Stage.isOpen])

theorem isOpen_holdsPermit (stage : Stage) : stage.isOpen = true → stage.holdsPermit = true := by
  cases stage <;> simp [Stage.isOpen, Stage.holdsPermit]

/-! ### All callers -/

/-- The permits of a shard and the callers holding one, and its connections, are within the limit. -/
structure WithinLimit (s : PoolState) : Prop where
  permits : ∀ id, s.pool.permits id + s.count Stage.holdsPermit id ≤ s.pool.maxPerShard
  room : ∀ id, (s.pool.idle id).length + s.count Stage.isOpen id ≤ s.pool.maxPerShard

theorem count_open_le (s : PoolState) (id : Nat) : s.count Stage.isOpen id ≤ s.count Stage.holdsPermit id := by
  apply List.countP_mono_left
  intro h _ counted
  rw [Bool.and_eq_true] at counted ⊢
  exact ⟨counted.1, isOpen_holdsPermit _ counted.2⟩

theorem WithinLimit.acquire {s t : PoolState} {id : Nat} (within : WithinLimit s) (h : s.acquire id = some t) :
    WithinLimit t := by
  rw [PoolState.acquire_some h]
  have waiting : ∀ p : Stage → Bool, p .waiting = false → ∀ other,
      PoolState.count { s with handles := s.handles ++ [⟨id, .waiting⟩] } p other = s.count p other := by
    intro p none other
    simp [PoolState.count, List.countP_append, none]
  refine ⟨fun other => ?_, fun other => ?_⟩
  · rw [waiting _ rfl]
    exact within.permits other
  · rw [waiting _ rfl]
    exact within.room other

theorem WithinLimit.handle {s t : PoolState} {i : Nat} {event : HandleEvent} (within : WithinLimit s)
    (h : s.handle i event = some t) : WithinLimit t := by
  obtain ⟨hd, pool, stage, found, moved, rfl⟩ := PoolState.handle_some h
  obtain ⟨limit, others⟩ := handleStep_frame moved
  have permits : ∀ id, pool.permits id +
      (s.advanced i event pool ⟨hd.shardId, stage⟩).count Stage.holdsPermit id ≤ pool.maxPerShard := by
    intro id
    have counted := PoolState.count_replaced Stage.holdsPermit found event pool stage id
    have before := within.permits id
    rw [limit]
    by_cases same : hd.shardId = id
    · subst same
      have conserved := handleStep_permits moved
      simp only [decide_true, Bool.true_and] at counted
      omega
    · have unchanged := (others id (Ne.symm same)).2
      simp only [same, decide_false, Bool.false_and, Bool.toNat_false, Nat.add_zero] at counted
      omega
  refine ⟨permits, fun id => ?_⟩
  have counted := PoolState.count_replaced Stage.isOpen found event pool stage id
  change (pool.idle id).length + _ ≤ pool.maxPerShard
  have before := within.room id
  by_cases same : hd.shardId = id
  · subst same
    rcases handleStep_open moved with opened | empty
    · simp only [decide_true, Bool.true_and] at counted
      rw [limit]
      omega
    · have held := permits hd.shardId
      have bound := count_open_le (s.advanced i event pool ⟨hd.shardId, stage⟩) hd.shardId
      rw [empty, List.length_nil]
      omega
  · have unchanged := (others id (Ne.symm same)).1
    simp only [same, decide_false, Bool.false_and, Bool.toNat_false, Nat.add_zero] at counted
    rw [limit, unchanged]
    omega

theorem WithinLimit.step {s t : PoolState} {e : PoolEvent} (within : WithinLimit s) (h : s.step e = some t) :
    WithinLimit t := by
  cases e with
  | acquire id => exact within.acquire h
  | handle i event => exact within.handle h

theorem step_maxPerShard {s t : PoolState} {e : PoolEvent} (h : s.step e = some t) :
    t.pool.maxPerShard = s.pool.maxPerShard := by
  cases e with
  | acquire id => rw [PoolState.acquire_some h]
  | handle i event =>
    obtain ⟨_, _, _, _, moved, rfl⟩ := PoolState.handle_some h
    exact (handleStep_frame moved).1

/-! ### Every run -/

theorem withinLimit_start (shards : List ShardConfig) (maxPerShard : Nat) :
    WithinLimit (.start shards maxPerShard) := by
  refine ⟨fun id => ?_, fun id => Nat.zero_le _⟩
  have permits : (ShardPgPool.new shards maxPerShard).permits id ≤ max maxPerShard 1 := by
    unfold ShardPgPool.permits ShardPgPool.new
    rw [HashMap.get_collect_const]
    split
    · exact Nat.le_refl _
    · exact Nat.zero_le _
  exact permits

theorem withinLimit_run {shards : List ShardConfig} {maxPerShard : Nat} {events : List PoolEvent} {s : PoolState}
    (reached : Machine.run PoolState.step (.start shards maxPerShard) events = some s) :
    WithinLimit s ∧ s.pool.maxPerShard = max maxPerShard 1 :=
  Machine.invariant_run (I := fun s => WithinLimit s ∧ s.pool.maxPerShard = max maxPerShard 1)
    (fun _ _ _ kept moved => ⟨kept.1.step moved, (step_maxPerShard moved).trans kept.2⟩)
    ⟨withinLimit_start shards maxPerShard, rfl⟩ reached

theorem WithinLimit.release_room {s : PoolState} (within : WithinLimit s) {i : Nat} {id : Nat}
    {client : PgWireClient} (holds : s.handles[i]? = some ⟨id, .held client⟩) :
    (s.pool.release id client).idle id = s.pool.idle id ++ [client] := by
  have counted : 0 < s.count Stage.isOpen id :=
    List.countP_pos_iff.mpr ⟨_, List.mem_of_getElem? holds, by simp [Stage.isOpen]⟩
  have room := within.room id
  rw [ShardPgPool.release, ShardPgPool.setIdle_idle, if_pos rfl, if_pos (by omega)]

/-- Whatever the callers do in whatever order, the connections of a shard stay within the limit, and a
client that a caller drops finds room in the idle list. -/
theorem pool_within_limit {shards : List ShardConfig} {maxPerShard : Nat} {events : List PoolEvent}
    {s : PoolState} (reached : Machine.run PoolState.step (.start shards maxPerShard) events = some s)
    (shardId : Nat) :
    s.openConnections shardId ≤ max maxPerShard 1 ∧
      ∀ (i : Nat) (client : PgWireClient), s.handles[i]? = some ⟨shardId, .held client⟩ →
        (s.pool.release shardId client).idle shardId = s.pool.idle shardId ++ [client] := by
  obtain ⟨within, limit⟩ := withinLimit_run reached
  refine ⟨?_, fun i client holds => within.release_room holds⟩
  rw [← limit]
  exact within.room shardId

def shardZero : ShardConfig := ⟨0, "a:9009".toList, "a:8812".toList, 1, 1⟩

/-- A caller connects, asks and drops its client; a second caller waits for the permit and takes it. -/
def handover : List PoolEvent :=
  [.acquire 0, .handle 0 .permit, .handle 0 .pop, .handle 0 .connected, .acquire 0, .handle 0 .query,
    .handle 0 .drop, .handle 0 .dropPermit, .handle 1 .permit, .handle 1 .pop]

theorem pool_within_limit_handover :
    ∃ s, Machine.run PoolState.step (.start [shardZero] 0) handover = some s ∧
      s.handles[1]? = some ⟨0, .held 0⟩ ∧ s.openConnections 0 ≤ max 0 1 := by
  obtain ⟨s, reached, held⟩ : ∃ s, Machine.run PoolState.step (.start [shardZero] 0) handover = some s ∧
      s.handles[1]? = some ⟨0, .held 0⟩ := ⟨_, rfl, rfl⟩
  exact ⟨s, reached, held, (pool_within_limit reached 0).1⟩

end QuestRouter.Pool
