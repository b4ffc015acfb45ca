import QuestRouter.Pool.Limit
import QuestRouter.Pool.Places

/-!
# Leases of permits and connections

A permit that a caller takes comes back, and whatever the callers are at, they can all finish. A connection that was
opened is idle or with a caller until somebody invalidates it.
-/

namespace QuestRouter.Pool
open Data

/-! ### Permits -/

/-- How many steps a caller that wants nothing from its client has to go. -/
def Stage.left : Stage → Nat
  | .waiting => 5
  | .permitted => 4
  | .connecting => 3
  | .held _ => 2
  | .invalidated => 2
  | .returned => 1
  | .finished => 0

def PoolState.left (s : PoolState) : Nat := (s.handles.map fun h => h.stage.left).sum

/-- The permits of each shard are free or held, and only configured shards have callers. -/
structure Leased (shards : List ShardConfig) (maxPerShard : Nat) (s : PoolState) : Prop where
  permits : ∀ id, s.pool.permits id + s.count Stage.holdsPermit id = (ShardPgPool.new shards maxPerShard).permits id
  known : ∀ id, (s.pool.semaphores.get id).isSome = true → 0 < (ShardPgPool.new shards maxPerShard).permits id
  callers : ∀ h ∈ s.handles, 0 < (ShardPgPool.new shards maxPerShard).permits h.shardId

variable {shards : List ShardConfig} {maxPerShard : Nat} {s t : PoolState} {i : Nat} {event : HandleEvent}

theorem new_permits (shards : List ShardConfig) (maxPerShard id : Nat) :
    (ShardPgPool.new shards maxPerShard).permits id =
      if id ∈ shards.map (·.id) then max maxPerShard 1 else 0 := by
  unfold ShardPgPool.permits ShardPgPool.new
  rw [HashMap.get_collect_const]
  split <;> rfl

theorem leased_start (shards : List ShardConfig) (maxPerShard : Nat) :
    Leased shards maxPerShard (.start shards maxPerShard) where
  permits _ := rfl
  known id some := by
    change ((ShardPgPool.new shards maxPerShard).semaphores.get id).isSome = true at some
    unfold ShardPgPool.new at some
    rw [HashMap.get_collect_const] at some
    rw [new_permits]
    split at some
    · rename_i configured
      rw [if_pos configured]
      omega
    · cases some
  callers := nofun

/-- A step takes no semaphore away and adds one only for the shard of the caller. -/
theorem handleStep_semaphores {pool pool' : ShardPgPool} {fresh : PgWireClient} {shardId : Nat} {stage stage' : Stage}
    (moved : handleStep pool fresh shardId event stage = some (pool', stage')) {id : Nat} (other : id ≠ shardId) :
    pool'.semaphores.get id = pool.semaphores.get id := by
  unfold handleStep at moved
  split at moved
  case h_1 =>
    split at moved
    · cases moved
      exact HashMap.get_insert_ne _ _ other
    · cases moved
  case h_2 =>
    split at moved <;> cases moved <;> rfl
  case h_11 =>
    cases moved
    exact HashMap.get_insert_ne _ _ other
  all_goals
    cases moved
    try rfl

theorem Leased.acquire {id : Nat} (leased : Leased shards maxPerShard s) (h : s.acquire id = some t) :
    Leased shards maxPerShard t := by
  have some : (s.pool.semaphores.get id).isSome = true := by
    unfold PoolState.acquire at h
    split at h
    · assumption
    · cases h
  rw [PoolState.acquire_some h]
  refine ⟨fun other => ?_, leased.known, fun caller member => ?_⟩
  · have waiting : PoolState.count { s with handles := s.handles ++ [⟨id, .waiting⟩] } Stage.holdsPermit other =
        s.count Stage.holdsPermit other := by
      simp [PoolState.count, List.countP_append, Stage.holdsPermit]
    rw [waiting]
    exact leased.permits other
  · rcases List.mem_append.mp member with old | new
    · exact leased.callers caller old
    · obtain rfl := List.mem_singleton.mp new
      exact leased.known id some

theorem Leased.handle (leased : Leased shards maxPerShard s) (h : s.handle i event = some t) :
    Leased shards maxPerShard t := by
  obtain ⟨hd, pool, stage, found, moved, rfl⟩ := PoolState.handle_some h
  obtain ⟨_, others⟩ := handleStep_frame moved
  have configured := leased.callers hd (List.mem_of_getElem? found)
  refine ⟨fun id => ?_, fun id some => ?_, fun caller member => ?_⟩
  · have counted := PoolState.count_replaced Stage.holdsPermit found event pool stage id
    have before := leased.permits id
    show pool.permits id + _ = _
    by_cases same : hd.shardId = id
    · subst same
      have conserved := handleStep_permits moved
      simp only [decide_true, Bool.true_and] at counted
      omega
    · have unchanged := (others id (Ne.symm same)).2
      simp only [same, decide_false, Bool.false_and, Bool.toNat_false, Nat.add_zero] at counted
      omega
  · by_cases same : id = hd.shardId
    · rw [same]
      exact configured
    · apply leased.known id
      rw [← handleStep_semaphores moved same]
      exact some
  · rcases List.mem_or_eq_of_mem_set member with old | rfl
    · exact leased.callers caller old
    · exact configured

theorem Leased.step {e : PoolEvent} (leased : Leased shards maxPerShard s) (h : s.step e = some t) :
    Leased shards maxPerShard t := by
  cases e with
  | acquire id => exact leased.acquire h
  | handle i event => exact leased.handle h

/-! ### Callers finish -/

/-- A caller with a permit can always go on. -/
theorem goes_on (pool : ShardPgPool) (fresh : PgWireClient) (shardId : Nat) {stage : Stage}
    (holds : stage.holdsPermit = true) :
    ∃ event pool' stage', handleStep pool fresh shardId event stage = some (pool', stage') ∧ stage'.left < stage.left := by
  cases stage with
  | waiting => cases holds
  | permitted =>
    cases last : (pool.idle shardId).getLast? with
    | some client =>
      refine ⟨.pop, pool.setIdle shardId (pool.idle shardId).dropLast, .held client, ?_, by show 2 < 4; decide⟩
      simp only [handleStep, last]
    | none =>
      refine ⟨.pop, pool, .connecting, ?_, by decide⟩
      simp only [handleStep, last]
  | connecting => exact ⟨.connectFailed, pool, .returned, rfl, by decide⟩
  | held client => exact ⟨.drop, pool.release shardId client, .returned, rfl, Nat.one_lt_two⟩
  | invalidated => exact ⟨.drop, pool, .returned, rfl, by decide⟩
  | returned => exact ⟨.dropPermit, pool.setPermits shardId (pool.permits shardId + 1), .finished, rfl, by decide⟩
  | finished => cases holds

/-- While a caller has not finished, one of them has a step that brings it further. -/
theorem Leased.progress (leased : Leased shards maxPerShard s) {h : Handle} (member : h ∈ s.handles)
    (unfinished : h.stage ≠ .finished) : ∃ i event t, s.handle i event = some t ∧ t.left < s.left := by
  have further : ∀ {i : Nat} {hd : Handle} {event : HandleEvent} {pool : ShardPgPool} {stage : Stage},
      s.handles[i]? = some hd → handleStep s.pool s.opened hd.shardId event hd.stage = some (pool, stage) →
        stage.left < hd.stage.left → ∃ i event t, s.handle i event = some t ∧ t.left < s.left := by
    intro i hd event pool stage found moved less
    refine ⟨i, event, s.advanced i event pool ⟨hd.shardId, stage⟩, ?_, ?_⟩
    · unfold PoolState.handle
      simp only [found, moved]
    · have total := Machine.sum_replaced (fun h : Handle => h.stage.left) found ⟨hd.shardId, stage⟩
      show ((s.handles.set i ⟨hd.shardId, stage⟩).map _).sum < _
      unfold PoolState.left
      dsimp only at total
      omega
  by_cases holder : ∃ hd ∈ s.handles, hd.stage.holdsPermit = true
  · obtain ⟨hd, inside, holds⟩ := holder
    obtain ⟨i, found⟩ := List.mem_iff_getElem?.mp inside
    obtain ⟨event, pool, stage, moved, less⟩ := goes_on s.pool s.opened hd.shardId holds
    exact further found moved less
  · -- Nobody holds a permit, so there is one for the caller that waits.
    have waits : h.stage = .waiting := by
      cases stage : h.stage with
      | waiting => rfl
      | finished => exact (unfinished stage).elim
      | _ => exact (holder ⟨h, member, by rw [stage]; rfl⟩).elim
    have nobody : s.count Stage.holdsPermit h.shardId = 0 := by
      apply List.countP_eq_zero.mpr
      intro hd inside counted
      rw [Bool.and_eq_true] at counted
      exact holder ⟨hd, inside, counted.2⟩
    have free : 0 < s.pool.permits h.shardId := by
      have all := leased.permits h.shardId
      have configured := leased.callers h member
      omega
    obtain ⟨i, found⟩ := List.mem_iff_getElem?.mp member
    have moved : handleStep s.pool s.opened h.shardId .permit h.stage =
        some (s.pool.setPermits h.shardId (s.pool.permits h.shardId - 1), .permitted) := by
      simp only [waits, handleStep, if_pos free]
    exact further found moved (by rw [waits]; decide)

theorem Leased.finishes (leased : Leased shards maxPerShard s) : ∃ events t, Machine.run PoolState.step s events = some t ∧
    (∀ e ∈ events, ∃ i event, e = .handle i event) ∧ (∀ h ∈ t.handles, h.stage = .finished) ∧
    Leased shards maxPerShard t := by
  induction size : s.left using Nat.strongRecOn generalizing s with
  | ind n ih =>
    by_cases unfinished : ∃ h ∈ s.handles, h.stage ≠ .finished
    · obtain ⟨h, member, stage⟩ := unfinished
      obtain ⟨i, event, u, moved, less⟩ := leased.progress member stage
      obtain ⟨events, t, rest, own, done, last⟩ := ih u.left (by omega) (leased.handle moved) rfl
      refine ⟨.handle i event :: events, t, Machine.run_cons.mpr ⟨u, moved, rest⟩, ?_, done, last⟩
      intro e inside
      rcases List.mem_cons.mp inside with rfl | later
      · exact ⟨i, event, rfl⟩
      · exact own e later
    · refine ⟨[], s, rfl, nofun, fun h member => ?_, leased⟩
      by_contra stage
      exact unfinished ⟨h, member, stage⟩

/-- From every state that a run leads to, the callers can go on until all of them have finished. Then the permits of
every configured shard are all back, up to the limit. -/
theorem callers_finish {events : List PoolEvent}
    (reached : Machine.run PoolState.step (.start shards maxPerShard) events = some s) :
    ∃ later t, Machine.run PoolState.step s later = some t ∧ (∀ e ∈ later, ∃ i event, e = .handle i event) ∧
      (∀ h ∈ t.handles, h.stage = .finished) ∧
      ∀ id, t.pool.permits id = if id ∈ shards.map (·.id) then max maxPerShard 1 else 0 := by
  have leased : Leased shards maxPerShard s :=
    Machine.invariant_run (fun _ _ _ leased h => Leased.step leased h) (leased_start shards maxPerShard) reached
  obtain ⟨later, t, run, own, done, last⟩ := leased.finishes
  refine ⟨later, t, run, own, done, fun id => ?_⟩
  have nobody : t.count Stage.holdsPermit id = 0 := by
    apply List.countP_eq_zero.mpr
    intro hd inside counted
    rw [Bool.and_eq_true, done hd inside] at counted
    cases counted.2
  have all := last.permits id
  rw [← new_permits]
  omega

theorem callers_finish_handover : ∃ s, Machine.run PoolState.step (.start [shardZero] 0) handover = some s ∧
    ∃ later t, Machine.run PoolState.step s later = some t ∧ (∀ e ∈ later, ∃ i event, e = .handle i event) ∧
      (∀ h ∈ t.handles, h.stage = .finished) ∧
      ∀ id, t.pool.permits id = if id ∈ [shardZero].map (·.id) then max 0 1 else 0 :=
  have reached : Machine.run PoolState.step (.start [shardZero] 0) handover = some _ := rfl
  ⟨_, reached, callers_finish reached⟩

/-! ### Connections -/

/-- The connection is idle, or a caller has it. -/
def PoolState.Present (s : PoolState) (client : PgWireClient) : Prop :=
  (∃ id, client ∈ s.pool.idle id) ∨ ∃ h ∈ s.handles, h.stage.client = some client

theorem present_iff {client : PgWireClient} : s.Present client ↔ ∃ p, s.occupant p = some client := by
  constructor
  · intro present
    rcases present with ⟨id, inside⟩ | ⟨h, member, holds⟩
    · obtain ⟨k, there⟩ := List.mem_iff_getElem?.mp inside
      exact ⟨.idle id k, there⟩
    · obtain ⟨i, found⟩ := List.mem_iff_getElem?.mp member
      exact ⟨.held i, Option.bind_eq_some_iff.mpr ⟨h, found, holds⟩⟩
  · intro ⟨p, occupied⟩
    cases p with
    | idle id k => exact .inl ⟨id, List.mem_of_getElem? occupied⟩
    | held i =>
      obtain ⟨h, found, holds⟩ := Option.bind_eq_some_iff.mp occupied
      exact .inr ⟨h, List.mem_of_getElem? found, holds⟩

/-- A caller invalidates the client that it has. -/
def Invalidates (s : PoolState) (client : PgWireClient) : PoolEvent → Prop
  | .handle i .invalidate => ∃ h, s.handles[i]? = some h ∧ h.stage = .held client
  | _ => False

section
variable {hd : Handle} {pool : ShardPgPool} {stage : Stage} {client : PgWireClient}

/-- A client stays where neither the idle lists nor the caller lose it. -/
theorem present_advanced (found : s.handles[i]? = some hd)
    (idle : ∀ id, client ∈ s.pool.idle id → client ∈ pool.idle id ∨ stage.client = some client)
    (held : hd.stage.client = some client → stage.client = some client ∨ ∃ id, client ∈ pool.idle id)
    (present : s.Present client) : (s.advanced i event pool ⟨hd.shardId, stage⟩).Present client := by
  obtain ⟨inside, same⟩ := List.getElem?_eq_some_iff.mp found
  have here : stage.client = some client → (s.advanced i event pool ⟨hd.shardId, stage⟩).Present client := fun holds =>
    .inr ⟨⟨hd.shardId, stage⟩, List.mem_set inside _, holds⟩
  rcases present with ⟨id, there⟩ | ⟨h, member, holds⟩
  · rcases idle id there with still | taken
    · exact .inl ⟨id, still⟩
    · exact here taken
  · obtain ⟨j, there⟩ := List.mem_iff_getElem?.mp member
    by_cases own : j = i
    · subst own
      obtain rfl : hd = h := Option.some.inj (found.symm.trans there)
      rcases held holds with still | ⟨id, back⟩
      · exact here still
      · exact .inl ⟨id, back⟩
    · refine .inr ⟨h, List.mem_iff_getElem?.mpr ⟨j, ?_⟩, holds⟩
      show (s.handles.set i ⟨hd.shardId, stage⟩)[j]? = some h
      rw [Machine.getElem?_replaced found, if_neg own]
      exact there

end

section
variable {pool pool' : ShardPgPool} {fresh client last : PgWireClient} {shardId id : Nat}

/-- The last idle client is taken, the others stay. -/
theorem idle_or_taken (taken : (pool.idle shardId).getLast? = some last) (inside : client ∈ pool.idle id) :
    client ∈ (pool.setIdle shardId (pool.idle shardId).dropLast).idle id ∨ last = client := by
  rw [ShardPgPool.setIdle_idle]
  split
  · rename_i same
    subst same
    obtain ⟨rest, all⟩ := List.getLast?_eq_some_iff.mp taken
    rw [all, List.dropLast_concat]
    rw [all] at inside
    rcases List.mem_append.mp inside with early | here
    · exact .inl early
    · exact .inr (List.mem_singleton.mp here).symm
  · exact .inl inside

theorem idle_of_release (room : (pool.release shardId last).idle shardId = pool.idle shardId ++ [last])
    (inside : client ∈ pool.idle id) : client ∈ (pool.release shardId last).idle id := by
  by_cases same : id = shardId
  · subst same
    rw [room]
    exact List.mem_append_left _ inside
  · rw [ShardPgPool.release, ShardPgPool.setIdle_idle, if_neg same]
    exact inside

/-- What a caller does to clients: it takes an idle one, gives its own back, or invalidates it. -/
theorem handleStep_clients {stage stage' : Stage}
    (moved : handleStep pool fresh shardId event stage = some (pool', stage'))
    (room : ∀ c, stage = .held c → (pool.release shardId c).idle shardId = pool.idle shardId ++ [c]) :
    (∀ id, client ∈ pool.idle id → client ∈ pool'.idle id ∨ stage'.client = some client) ∧
      (stage.client = some client → (stage'.client = some client ∨ ∃ id, client ∈ pool'.idle id) ∨
        event = .invalidate ∧ stage = .held client) := by
  have nobody : ∀ {P : Prop}, (none : Option PgWireClient) = some client → P := by
    intro P same
    cases same
  unfold handleStep at moved
  split at moved
  -- a permit
  case h_1 =>
    split at moved
    · cases moved
      exact ⟨fun _ inside => .inl inside, nobody⟩
    · cases moved
  -- an idle client or none
  case h_2 =>
    split at moved
    · rename_i last taken
      cases moved
      exact ⟨fun id inside => (idle_or_taken taken inside).imp_right (congrArg some), nobody⟩
    · cases moved
      exact ⟨fun _ inside => .inl inside, nobody⟩
  -- a new client
  case h_3 =>
    cases moved
    exact ⟨fun _ inside => .inl inside, nobody⟩
  -- an invalidation
  case h_7 held =>
    cases moved
    exact ⟨fun _ inside => .inl inside, fun holds => .inr ⟨rfl, by rw [Option.some.inj holds]⟩⟩
  -- a release
  case h_9 held =>
    cases moved
    refine ⟨fun id inside => .inl (idle_of_release (room _ rfl) inside), fun holds => .inl (.inr ⟨shardId, ?_⟩)⟩
    rw [room _ rfl, Option.some.inj holds]
    exact List.mem_append_right _ (List.mem_singleton_self _)
  case h_11 =>
    cases moved
    exact ⟨fun _ inside => .inl inside, nobody⟩
  all_goals
    cases moved
    try exact ⟨fun _ inside => .inl inside, fun holds => .inl (.inl holds)⟩

end

/-- Only an invalidation takes a connection away. -/
theorem step_present {e : PoolEvent} {client : PgWireClient} (within : WithinLimit s) (h : s.step e = some t)
    (present : s.Present client) : t.Present client ∨ Invalidates s client e := by
  cases e with
  | acquire id =>
    rw [PoolState.acquire_some h]
    left
    rcases present with idle | ⟨hd, member, holds⟩
    · exact .inl idle
    · exact .inr ⟨hd, List.mem_append_left _ member, holds⟩
  | handle i event =>
    obtain ⟨hd, pool, stage, found, moved, rfl⟩ := PoolState.handle_some h
    have room : ∀ c, hd.stage = .held c → (s.pool.release hd.shardId c).idle hd.shardId =
        s.pool.idle hd.shardId ++ [c] := by
      intro c holds
      have here : s.handles[i]? = some ⟨hd.shardId, .held c⟩ := by rw [found, ← holds]
      exact within.release_room here
    obtain ⟨idle, held⟩ := handleStep_clients moved room
    by_cases invalidates : event = .invalidate ∧ hd.stage = .held client
    · right
      rw [invalidates.1]
      exact ⟨hd, found, invalidates.2⟩
    · exact .inl (present_advanced found idle (fun holds => (held holds).resolve_right invalidates) present)

theorem handleStep_connected {pool pool' : ShardPgPool} {fresh : PgWireClient} {shardId : Nat} {stage stage' : Stage}
    (moved : handleStep pool fresh shardId .connected stage = some (pool', stage')) :
    stage'.client = some fresh := by
  cases stage with
  | connecting =>
    cases moved
    rfl
  | _ => cases moved

theorem step_opened {e : PoolEvent} (h : s.step e = some t) :
    t.opened = s.opened ∨ t.opened = s.opened + 1 ∧ t.Present s.opened := by
  cases e with
  | acquire id =>
    rw [PoolState.acquire_some h]
    exact .inl rfl
  | handle i event =>
    obtain ⟨hd, pool, stage, found, moved, rfl⟩ := PoolState.handle_some h
    by_cases connects : event = .connected
    · right
      subst connects
      refine ⟨rfl, .inr ⟨⟨hd.shardId, stage⟩, ?_, ?_⟩⟩
      · obtain ⟨inside, _⟩ := List.getElem?_eq_some_iff.mp found
        exact List.mem_set inside _
      · exact handleStep_connected moved
    · exact .inl (if_neg connects)

/-- Some step of the run invalidates the client. -/
def InvalidatedIn (start : PoolState) (events : List PoolEvent) (client : PgWireClient) : Prop :=
  ∃ before e after u, events = before ++ e :: after ∧ Machine.run PoolState.step start before = some u ∧
    Invalidates u client e

theorem InvalidatedIn.more {start : PoolState} {events : List PoolEvent} {client : PgWireClient}
    (earlier : InvalidatedIn start events client) (later : List PoolEvent) :
    InvalidatedIn start (events ++ later) client := by
  obtain ⟨before, e, after, u, rfl, reached, invalidates⟩ := earlier
  exact ⟨before, e, after ++ later, u, by simp, reached, invalidates⟩

/-- A connection that is nowhere was invalidated. -/
theorem present_or_invalidated {events : List PoolEvent} {client : PgWireClient}
    (reached : Machine.run PoolState.step (.start shards maxPerShard) events = some s) (opened : client < s.opened) :
    s.Present client ∨ InvalidatedIn (.start shards maxPerShard) events client := by
  induction events using List.reverseRecOn generalizing s with
  | nil =>
    cases reached
    cases opened
  | append_singleton events e ih =>
    obtain ⟨u, before, last⟩ := Machine.run_concat.mp reached
    have within := (withinLimit_run before).1
    have old : client < u.opened → s.Present client ∨
        InvalidatedIn (.start shards maxPerShard) (events ++ [e]) client := by
      intro below
      rcases ih before below with present | earlier
      · rcases step_present within last present with still | invalidates
        · exact .inl still
        · exact .inr ⟨events, e, [], u, rfl, before, invalidates⟩
      · exact .inr (earlier.more [e])
    rcases step_opened last with same | ⟨one, fresh⟩
    · exact old (same ▸ opened)
    · by_cases below : client < u.opened
      · exact old below
      · have same : client = u.opened := by
          apply Nat.le_antisymm _ (Nat.le_of_not_lt below)
          rw [one] at opened
          exact Nat.le_of_lt_succ opened
        rw [same]
        exact .inl fresh

theorem distinct_run {events : List PoolEvent} (distinct : Distinct s)
    (reached : Machine.run PoolState.step s events = some t) : Distinct t :=
  Machine.invariant_run (fun _ _ _ distinct h => distinct.moves (step_moves h)) distinct reached

theorem gone_run {events : List PoolEvent} {client : PgWireClient} (gone : Gone s client)
    (reached : Machine.run PoolState.step s events = some t) : Gone t client :=
  Machine.invariant_run (I := fun s => Gone s client) (fun _ _ _ gone h => gone.moves (step_moves h)) gone reached

/-- In every run, a connection that was opened is in the pool or with a caller, and in one place only, exactly if no
caller has invalidated it. -/
theorem connections_kept {events : List PoolEvent} {client : PgWireClient}
    (reached : Machine.run PoolState.step (.start shards maxPerShard) events = some s) (opened : client < s.opened) :
    (∃ p, s.occupant p = some client ∧ ∀ q, s.occupant q = some client → q = p) ↔
      ¬ InvalidatedIn (.start shards maxPerShard) events client := by
  constructor
  · intro ⟨p, occupied, _⟩ ⟨before, e, after, u, split, first, invalidates⟩
    rw [split] at reached
    obtain ⟨v, here, rest⟩ := Machine.run_append.mp reached
    obtain rfl : u = v := Option.some.inj (first.symm.trans here)
    obtain ⟨w, step, later⟩ := Machine.run_cons.mp rest
    have gone : Gone w client := by
      have distinct := distinct_run (distinct_start shards maxPerShard) first
      unfold Invalidates at invalidates
      split at invalidates
      · obtain ⟨h, found, holds⟩ := invalidates
        exact invalidated_gone distinct found holds step
      · cases invalidates
    exact (gone_run gone later).2 p occupied
  · intro kept
    obtain ⟨p, occupied⟩ := present_iff.mp ((present_or_invalidated reached opened).resolve_right kept)
    have distinct := distinct_run (distinct_start shards maxPerShard) reached
    exact ⟨p, occupied, fun q there => distinct.one q p client there occupied⟩

/-- The caller of a run invalidates its client, and another one connects. -/
def replaced : List PoolEvent :=
  [.acquire 0, .handle 0 .permit, .handle 0 .pop, .handle 0 .connected, .handle 0 .invalidate, .handle 0 .drop,
    .handle 0 .dropPermit, .acquire 0, .handle 1 .permit, .handle 1 .pop, .handle 1 .connected]

theorem connections_kept_replaced : ∃ s, Machine.run PoolState.step (.start [shardZero] 1) replaced = some s ∧
    ((∃ p, s.occupant p = some 0 ∧ ∀ q, s.occupant q = some 0 → q = p) ↔
      ¬ InvalidatedIn (.start [shardZero] 1) replaced 0) :=
  have reached : Machine.run PoolState.step (.start [shardZero] 1) replaced = some _ := rfl
  ⟨_, reached, connections_kept reached (by decide)⟩

end QuestRouter.Pool
