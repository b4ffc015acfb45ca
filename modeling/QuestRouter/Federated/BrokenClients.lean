import QuestRouter.Federated.ShardTasks

/-!
# Broken clients

A client that answered with a connection error stays out of the pool as long as every such error is the
first answer of a `query_shard` call. Any other connection error puts its client back.
-/

namespace QuestRouter.Federated
open Text Data Pool

/-- A connection error is the first answer of `query_shard`, and does not read as a missing table. -/
def Reconnects (s : QueryState) : QueryEvent → Prop
  | .answer i (.error message) => ∀ call ∈ s.calls[i]?,
    Arrow.isConnectionError (shardQueryText call.shardId message) = true →
      call.caller = .queryShard ∧ call.stage = .asking .first ∧
        isMissingTableError (shardQueryText call.shardId message) = false
  | _ => True

instance (s : QueryState) : ∀ e, Decidable (Reconnects s e)
  | .answer i (.error message) => inferInstanceAs (Decidable (∀ call ∈ s.calls[i]?,
    Arrow.isConnectionError (shardQueryText call.shardId message) = true →
      call.caller = .queryShard ∧ call.stage = .asking .first ∧
        isMissingTableError (shardQueryText call.shardId message) = false))
  | .answer _ (.ok _) | .start .. | .permit _ | .pop _ | .connected _ | .connectFailed .. | .leave _
  | .dropPermit _ | .reacquire _ => .isTrue trivial

/-- Every client is in one place, within the limits, and the broken ones are gone. -/
structure BrokenGone (s : QueryState) : Prop where
  distinct : Distinct s.pool
  within : WithinLimit s.pool
  gone : ∀ c ∈ s.broken, Gone s.pool c

/-! ### The pool of the tasks -/

theorem afterFirst_reconnect {shardId : Nat} {message : Str}
    (connection : Arrow.isConnectionError (shardQueryText shardId message) = true)
    (present : isMissingTableError (shardQueryText shardId message) = false) :
    Arrow.afterFirst shardId (.error message) = .reconnect := by
  simp [Arrow.afterFirst, connection, present]

theorem step_distinct_within {s t : QueryState} {e : QueryEvent} (distinct : Distinct s.pool)
    (within : WithinLimit s.pool) (h : s.step e = some t) : Distinct t.pool ∧ WithinLimit t.pool := by
  rcases QueryState.step_pool h with same | ⟨event, moved⟩
  · rw [same]
    exact ⟨distinct, within⟩
  · exact ⟨distinct.moves (step_moves moved), within.step moved⟩

theorem gone_queryStep {s t : QueryState} {e : QueryEvent} {client : PgWireClient} (gone : Gone s.pool client)
    (h : s.step e = some t) : Gone t.pool client := by
  rcases QueryState.step_pool h with same | ⟨event, moved⟩
  · rw [same]
    exact gone
  · exact gone.moves (step_moves moved)

/-- An answer that reconnects takes the client it broke out of the pool. -/
theorem answered_gone {s t : QueryState} {i : Nat} {answer : Except Str (List ClientResponse)}
    (before : BrokenGone s) (reconnects : Reconnects s (.answer i answer)) (h : s.answered i answer = some t) :
    ∀ c ∈ t.broken, Gone t.pool c := by
  obtain ⟨call, attempt, client, found, stage, held, broken, decided⟩ := QueryState.answered_some h
  have kept : ∀ c ∈ s.broken, Gone t.pool c :=
    fun c member => gone_queryStep (before.gone c member) (show s.step (.answer i answer) = some t from h)
  rw [broken]
  cases answer with
  | ok responses => exact kept
  | error message =>
    intro c member
    split at member
    · rename_i observed
      rcases List.mem_cons.mp member with rfl | earlier
      · obtain ⟨caller, first, present⟩ := reconnects call found observed
        obtain rfl : attempt = .first := by
          rw [first] at stage
          cases stage
          rfl
        have reconnect := afterFirst_reconnect observed present
        rcases decided with ⟨result, done, _⟩ | ⟨_, invalidated⟩
        · rw [caller, afterAnswer, reconnect] at done
          cases done
        · obtain ⟨hd, inPool, holds⟩ := Option.bind_eq_some_iff.mp held
          have stageHeld : hd.stage = .held c := by
            cases known : hd.stage <;> rw [known] at holds <;> cases holds
            rfl
          exact invalidated_gone before.distinct inPool stageHeld invalidated
      · exact kept c earlier
    · exact kept c member

theorem BrokenGone.step {s t : QueryState} {e : QueryEvent} (before : BrokenGone s) (reconnects : Reconnects s e)
    (h : s.step e = some t) : BrokenGone t := by
  obtain ⟨distinct, within⟩ := step_distinct_within before.distinct before.within h
  refine ⟨distinct, within, ?_⟩
  by_cases answer : ∃ i answer, e = .answer i answer
  · obtain ⟨i, answer, rfl⟩ := answer
    exact answered_gone before reconnects h
  · rw [QueryState.step_broken h fun i a same => answer ⟨i, a, same⟩]
    exact fun c member => gone_queryStep (before.gone c member) h

theorem brokenGone_start (shards : List ShardConfig) (maxPerShard : Nat) :
    BrokenGone (.start shards maxPerShard) :=
  ⟨distinct_start shards maxPerShard, withinLimit_start shards maxPerShard, nofun⟩

/-! ### An error that does not reconnect -/

/-- The client of an error that is not handled is dropped into the idle list. -/
theorem unhandled_returns {s : QueryState} {i handleShard : Nat} {call : ShardCall} {attempt : Attempt}
    {client : PgWireClient} {message : Str} (within : WithinLimit s.pool) (found : s.calls[i]? = some call)
    (stage : call.stage = .asking attempt)
    (held : s.pool.handles[call.handle]? = some ⟨handleShard, .held client⟩)
    (connection : Arrow.isConnectionError (shardQueryText call.shardId message) = true)
    (unhandled : ¬ Reconnects s (.answer i (.error message))) :
    ∃ t u, s.step (.answer i (.error message)) = some t ∧ t.step (.leave i) = some u ∧
      client ∈ u.broken ∧ client ∈ u.pool.pool.idle handleShard := by
  have occupied : s.pool.occupant (.held call.handle) = some client :=
    Option.bind_eq_some_iff.mpr ⟨_, held, rfl⟩
  obtain ⟨result, done⟩ : ∃ result, afterAnswer call.shardId (.error message) call.caller attempt = .done result := by
    cases caller : call.caller with
    | queryAllShards => exact ⟨_, rfl⟩
    | queryShard =>
      cases attempt with
      | retry => exact ⟨_, rfl⟩
      | first =>
        have missing : isMissingTableError (shardQueryText call.shardId message) = true := by
          by_contra present
          refine unhandled fun other again _ => ?_
          obtain rfl : call = other := Option.some.inj (found.symm.trans again)
          exact ⟨caller, stage, by simpa using present⟩
        exact ⟨.ok [], by simp [afterAnswer, Arrow.afterFirst, missing]⟩
  have inside : i < s.calls.length := (List.getElem?_eq_some_iff.mp found).1
  have answered : s.step (.answer i (.error message)) =
      some { s with calls := s.calls.set i { call with stage := .returning result }, broken := client :: s.broken } := by
    have observed : connectionError call.shardId (.error message) = true := connection
    simp only [QueryState.step, QueryState.answered, found, stage, occupied, observed, done, ↓reduceIte]
  refine ⟨_, { s with
    pool := s.pool.advanced call.handle .drop (s.pool.pool.release handleShard client) ⟨handleShard, .returned⟩
    calls := (s.calls.set i { call with stage := .returning result }).set i { call with stage := .returning result }
    broken := client :: s.broken }, answered, ?_, List.mem_cons_self, ?_⟩
  · simp only [QueryState.step, QueryState.leave, QueryState.onClient, List.getElem?_set_self inside,
      Option.map_some, PoolState.handle, held, handleStep]
  · have room := within.release_room held
    change client ∈ (s.pool.pool.release handleShard client).idle handleShard
    rw [room]
    exact List.mem_append_right _ List.mem_cons_self

/-! ### Every run -/

/-- If every connection error is the first answer of a `query_shard` call and does not read as a missing table,
no broken client is ever idle. From any reachable state, an error that is not, puts its client into the idle
list as soon as its caller goes on. -/
theorem broken_clients_stay_out {shards : List ShardConfig} {maxPerShard : Nat} {events : List QueryEvent}
    {s : QueryState} (reached : Machine.run QueryState.step (.start shards maxPerShard) events = some s) :
    (Machine.Meets QueryState.step Reconnects (.start shards maxPerShard) events →
      ∀ c ∈ s.broken, ∀ id, c ∉ s.pool.pool.idle id) ∧
    ∀ (i handleShard : Nat) (call : ShardCall) (attempt : Attempt) (client : PgWireClient) (message : Str),
      s.calls[i]? = some call → call.stage = .asking attempt →
      s.pool.handles[call.handle]? = some ⟨handleShard, .held client⟩ →
      Arrow.isConnectionError (shardQueryText call.shardId message) = true →
      ¬ Reconnects s (.answer i (.error message)) →
      ∃ t u, s.step (.answer i (.error message)) = some t ∧ t.step (.leave i) = some u ∧
        client ∈ u.broken ∧ client ∈ u.pool.pool.idle handleShard := by
  constructor
  · intro meets c broken id idle
    have kept : BrokenGone s := Machine.invariant_run_of_meets
      (fun _ _ _ before reconnects moved => before.step reconnects moved) (brokenGone_start shards maxPerShard)
      meets reached
    obtain ⟨position, inside, here⟩ := List.getElem_of_mem idle
    exact (kept.gone c broken).2 (.idle id position) (List.getElem?_eq_some_iff.mpr ⟨inside, here⟩)
  · intro i handleShard call attempt client message found stage held connection unhandled
    have within : Distinct s.pool ∧ WithinLimit s.pool := Machine.invariant_run
      (I := fun s => Distinct s.pool ∧ WithinLimit s.pool)
      (fun _ _ _ before moved => step_distinct_within before.1 before.2 moved)
      ⟨distinct_start shards maxPerShard, withinLimit_start shards maxPerShard⟩ reached
    exact unhandled_returns within.2 found stage held connection unhandled

/-- A broken pipe on the first client of `query_shard`, and a good answer of the second. -/
def reconnected : List QueryEvent :=
  [.start .queryShard 0, .permit 0, .pop 0, .connected 0, .answer 0 (.error "broken pipe".toList), .leave 0,
    .dropPermit 0, .reacquire 0, .permit 0, .pop 0, .connected 0, .answer 0 (.ok []), .leave 0, .dropPermit 0]

theorem broken_clients_stay_out_reconnected :
    ∃ s, Machine.run QueryState.step (.start [shardZero] 4) reconnected = some s ∧ s.broken = [0] ∧
      s.pool.pool.idle 0 = [1] ∧ ∀ c ∈ s.broken, ∀ id, c ∉ s.pool.pool.idle id := by
  obtain ⟨s, reached, broken, idle⟩ : ∃ s,
      Machine.run QueryState.step (.start [shardZero] 4) reconnected = some s ∧ s.broken = [0] ∧
        s.pool.pool.idle 0 = [1] := ⟨_, rfl, rfl, rfl⟩
  exact ⟨s, reached, broken, idle, (broken_clients_stay_out reached).1 (by decide)⟩

/-- A broken pipe on the client of a fan-out task. -/
def fanOutBroken : List QueryEvent :=
  [.start .queryAllShards 0, .permit 0, .pop 0, .connected 0, .answer 0 (.error "broken pipe".toList), .leave 0,
    .dropPermit 0]

theorem fan_out_returns_broken :
    ∃ s, Machine.run QueryState.step (.start [shardZero] 4) fanOutBroken = some s ∧ 0 ∈ s.broken ∧
      0 ∈ s.pool.pool.idle 0 := ⟨_, rfl, by decide, by decide⟩

end QuestRouter.Federated
