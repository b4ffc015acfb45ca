import QuestRouter.Pool.Pg

/-!
# Places of clients

A client is in one place: in one position of one idle list, or with one caller. A step moves a client,
takes it away, or opens a new one; so a client that is gone from every place does not come back.
-/

namespace QuestRouter.Pool
open Data

inductive Place where
  | idle (shardId position : Nat)
  | held (i : Nat)
  deriving DecidableEq

def Stage.client : Stage → Option PgWireClient
  | .held client => some client
  | _ => none

def PoolState.occupant (s : PoolState) : Place → Option PgWireClient
  | .idle shardId position => (s.pool.idle shardId)[position]?
  | .held i => (s.handles[i]?).bind fun h => h.stage.client

/-- How the clients of a state come from those of the state before. -/
inductive Moves (s t : PoolState) : Prop where
  | kept (opened : t.opened = s.opened) (occupied : ∀ p c, t.occupant p = some c → s.occupant p = some c)
  | moved (origin target : Place) (client : PgWireClient) (was : s.occupant origin = some client)
      (opened : t.opened = s.opened)
      (occupied : ∀ p c, t.occupant p = some c → p = target ∧ c = client ∨ s.occupant p = some c ∧ p ≠ origin)
  | fresh (target : Place) (opened : t.opened = s.opened + 1)
      (occupied : ∀ p c, t.occupant p = some c → p = target ∧ c = s.opened ∨ s.occupant p = some c)

/-! ### One step -/

theorem advanced_held {s : PoolState} {i : Nat} {hd : Handle} (found : s.handles[i]? = some hd)
    (event : HandleEvent) (pool : ShardPgPool) (h : Handle) (j : Nat) :
    (s.advanced i event pool h).occupant (.held j) = if j = i then h.stage.client else s.occupant (.held j) := by
  unfold PoolState.occupant PoolState.advanced
  dsimp only
  rw [Machine.getElem?_replaced found]
  split <;> rfl

theorem acquire_moves {s t : PoolState} {id : Nat} (h : s.acquire id = some t) : Moves s t := by
  rw [PoolState.acquire_some h]
  refine .kept rfl fun p c occupied => ?_
  cases p with
  | idle shardId position => exact occupied
  | held j =>
    obtain ⟨hd, found, holds⟩ := Option.bind_eq_some_iff.mp occupied
    rw [List.getElem?_append] at found
    split at found
    · exact Option.bind_eq_some_iff.mpr ⟨hd, found, holds⟩
    · obtain rfl := List.mem_singleton.mp (List.mem_of_getElem? found)
      cases holds

section
variable {s : PoolState} {i : Nat} {hd : Handle} {event : HandleEvent} {pool : ShardPgPool} {stage : Stage}

/-- A step that leaves the idle lists and gives the caller no client that it did not have. -/
theorem advanced_kept (found : s.handles[i]? = some hd) (still : event ≠ .connected)
    (idle : ∀ id, pool.idle id = s.pool.idle id) (client : ∀ c, stage.client = some c → hd.stage.client = some c) :
    Moves s (s.advanced i event pool ⟨hd.shardId, stage⟩) := by
  refine .kept (if_neg still) fun p c occupied => ?_
  cases p with
  | idle id position =>
    rw [PoolState.occupant, ← idle]
    exact occupied
  | held j =>
    rw [advanced_held found] at occupied
    split at occupied
    · rename_i same
      subst same
      exact Option.bind_eq_some_iff.mpr ⟨hd, found, client c occupied⟩
    · exact occupied

theorem popped_moves {client : PgWireClient} (found : s.handles[i]? = some hd)
    (last : (s.pool.idle hd.shardId).getLast? = some client) :
    Moves s (s.advanced i .pop (s.pool.setIdle hd.shardId (s.pool.idle hd.shardId).dropLast)
      ⟨hd.shardId, .held client⟩) := by
  have position : (s.pool.idle hd.shardId)[(s.pool.idle hd.shardId).length - 1]? = some client := by
    rw [← List.getLast?_eq_getElem?]
    exact last
  refine .moved (.idle hd.shardId ((s.pool.idle hd.shardId).length - 1)) (.held i) client position rfl ?_
  intro p c occupied
  cases p with
  | idle id k =>
    right
    have inList : ((s.pool.setIdle hd.shardId (s.pool.idle hd.shardId).dropLast).idle id)[k]? = some c := occupied
    rw [ShardPgPool.setIdle_idle] at inList
    split at inList
    · rename_i same
      subst same
      rw [List.dropLast_eq_take, List.getElem?_take] at inList
      split at inList
      · rename_i before
        refine ⟨inList, fun clash => ?_⟩
        cases clash
        exact Nat.lt_irrefl _ before
      · cases inList
    · rename_i different
      exact ⟨inList, fun clash => by cases clash; exact different rfl⟩
  | held j =>
    rw [advanced_held found] at occupied
    split at occupied
    · rename_i same
      cases occupied
      exact .inl ⟨by rw [same], rfl⟩
    · exact .inr ⟨occupied, nofun⟩

theorem connected_moves (found : s.handles[i]? = some hd) :
    Moves s (s.advanced i .connected s.pool ⟨hd.shardId, .held s.opened⟩) := by
  refine .fresh (.held i) rfl fun p c occupied => ?_
  cases p with
  | idle id k => exact .inr occupied
  | held j =>
    rw [advanced_held found] at occupied
    split at occupied
    · rename_i same
      cases occupied
      exact .inl ⟨by rw [same], rfl⟩
    · exact .inr occupied

theorem released_moves {client : PgWireClient} (found : s.handles[i]? = some hd) (holds : hd.stage = .held client) :
    Moves s (s.advanced i .drop (s.pool.release hd.shardId client) ⟨hd.shardId, .returned⟩) := by
  have was : s.occupant (.held i) = some client :=
    Option.bind_eq_some_iff.mpr ⟨hd, found, by rw [holds]; rfl⟩
  refine .moved (.held i) (.idle hd.shardId (s.pool.idle hd.shardId).length) client was rfl ?_
  intro p c occupied
  cases p with
  | idle id k =>
    have inList : ((s.pool.release hd.shardId client).idle id)[k]? = some c := occupied
    rw [ShardPgPool.release, ShardPgPool.setIdle_idle] at inList
    split at inList
    · rename_i same
      subst same
      split at inList
      · rw [List.getElem?_append] at inList
        split at inList
        · exact .inr ⟨inList, nofun⟩
        · rename_i past
          have last : k - (s.pool.idle hd.shardId).length = 0 := by
            have bound := (List.getElem?_eq_some_iff.mp inList).1
            simpa using bound
          rw [last] at inList
          cases inList
          exact .inl ⟨by rw [show k = (s.pool.idle hd.shardId).length by omega], rfl⟩
      · exact .inr ⟨inList, nofun⟩
    · exact .inr ⟨inList, nofun⟩
  | held j =>
    rw [advanced_held found] at occupied
    split at occupied
    · cases occupied
    · rename_i different
      exact .inr ⟨occupied, fun clash => by cases clash; exact different rfl⟩

end

theorem handle_moves {s t : PoolState} {i : Nat} {event : HandleEvent} (h : s.handle i event = some t) :
    Moves s t := by
  obtain ⟨hd, pool, stage, found, moved, rfl⟩ := PoolState.handle_some h
  unfold handleStep at moved
  split at moved
  case h_1 =>
    split at moved
    · cases moved
      exact advanced_kept found nofun (fun _ => rfl) nofun
    · cases moved
  case h_2 =>
    split at moved
    · rename_i client last
      cases moved
      exact popped_moves found last
    · cases moved
      exact advanced_kept found nofun (fun _ => rfl) nofun
  case h_3 =>
    cases moved
    exact connected_moves found
  case h_9 holds =>
    cases moved
    exact released_moves found holds
  case h_11 =>
    cases moved
    exact advanced_kept found nofun (fun _ => rfl) nofun
  case h_5 _ _ _ holds =>
    cases moved
    exact advanced_kept found nofun (fun _ => rfl) fun c same => by rw [holds]; exact same
  all_goals
    cases moved
    try exact advanced_kept found nofun (fun _ => rfl) nofun

theorem step_moves {s t : PoolState} {e : PoolEvent} (h : s.step e = some t) : Moves s t := by
  cases e with
  | acquire id => exact acquire_moves h
  | handle i event => exact handle_moves h

/-! ### One place -/

/-- No client is in two places, and every client was opened before. -/
structure Distinct (s : PoolState) : Prop where
  opened : ∀ p c, s.occupant p = some c → c < s.opened
  one : ∀ p q c, s.occupant p = some c → s.occupant q = some c → p = q

theorem distinct_start (shards : List ShardConfig) (maxPerShard : Nat) : Distinct (.start shards maxPerShard) := by
  have nobody : ∀ p, (PoolState.start shards maxPerShard).occupant p = none := by
    intro p
    cases p <;> rfl
  refine ⟨fun p c occupied => ?_, fun p q c occupied => ?_⟩
  · rw [nobody] at occupied
    cases occupied
  · rw [nobody] at occupied
    cases occupied

theorem Distinct.moves {s t : PoolState} (distinct : Distinct s) (moves : Moves s t) : Distinct t := by
  cases moves with
  | kept opened occupied =>
    exact ⟨fun p c here => opened ▸ distinct.opened p c (occupied p c here),
      fun p q c here there => distinct.one p q c (occupied p c here) (occupied q c there)⟩
  | moved origin target client was opened occupied =>
    refine ⟨fun p c here => ?_, fun p q c here there => ?_⟩
    · rw [opened]
      rcases occupied p c here with ⟨_, rfl⟩ | ⟨before, _⟩
      · exact distinct.opened _ _ was
      · exact distinct.opened _ _ before
    · rcases occupied p c here with ⟨rfl, rfl⟩ | ⟨first, firstElse⟩ <;>
        rcases occupied q c there with ⟨rfl, same⟩ | ⟨second, secondElse⟩
      · rfl
      · exact (secondElse (distinct.one _ _ _ second was)).elim
      · subst same
        exact (firstElse (distinct.one _ _ _ first was)).elim
      · exact distinct.one _ _ _ first second
  | fresh target opened occupied =>
    refine ⟨fun p c here => ?_, fun p q c here there => ?_⟩
    · rw [opened]
      rcases occupied p c here with ⟨_, rfl⟩ | before
      · exact Nat.lt_succ_self _
      · exact Nat.lt_succ_of_lt (distinct.opened _ _ before)
    · rcases occupied p c here with ⟨rfl, new⟩ | first <;> rcases occupied q c there with ⟨rfl, same⟩ | second
      · rfl
      · exact (Nat.ne_of_lt (distinct.opened _ _ second) new).elim
      · exact (Nat.ne_of_lt (distinct.opened _ _ first) same).elim
      · exact distinct.one _ _ _ first second

/-- The client was opened and is in no place. -/
def Gone (s : PoolState) (client : PgWireClient) : Prop :=
  client < s.opened ∧ ∀ p, s.occupant p ≠ some client

theorem Gone.moves {s t : PoolState} {client : PgWireClient} (gone : Gone s client) (moves : Moves s t) :
    Gone t client := by
  obtain ⟨below, nowhere⟩ := gone
  cases moves with
  | kept opened occupied => exact ⟨opened ▸ below, fun p here => nowhere p (occupied p client here)⟩
  | moved origin target other was opened occupied =>
    refine ⟨opened ▸ below, fun p here => ?_⟩
    rcases occupied p client here with ⟨_, rfl⟩ | ⟨before, _⟩
    · exact nowhere origin was
    · exact nowhere p before
  | fresh target opened occupied =>
    refine ⟨opened ▸ Nat.lt_succ_of_lt below, fun p here => ?_⟩
    rcases occupied p client here with ⟨_, rfl⟩ | before
    · exact Nat.lt_irrefl _ below
    · exact nowhere p before

/-- The client of an invalidated handle is gone. -/
theorem invalidated_gone {s t : PoolState} {i : Nat} {hd : Handle} {client : PgWireClient}
    (distinct : Distinct s) (found : s.handles[i]? = some hd) (holds : hd.stage = .held client)
    (h : s.handle i .invalidate = some t) : Gone t client := by
  have was : s.occupant (.held i) = some client :=
    Option.bind_eq_some_iff.mpr ⟨hd, found, by rw [holds]; rfl⟩
  obtain ⟨other, pool, stage, again, moved, rfl⟩ := PoolState.handle_some h
  obtain rfl : hd = other := Option.some.inj (found.symm.trans again)
  rw [holds] at moved
  cases moved
  refine ⟨distinct.opened _ _ was, fun p here => ?_⟩
  cases p with
  | idle id k =>
    have before : s.occupant (.idle id k) = some client := here
    cases distinct.one _ _ _ before was
  | held j =>
    rw [advanced_held found] at here
    split at here
    · cases here
    · rename_i different
      have clash := distinct.one _ _ _ here was
      cases clash
      exact different rfl

end QuestRouter.Pool
