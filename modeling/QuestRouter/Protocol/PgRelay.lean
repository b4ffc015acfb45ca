import QuestRouter.Metadata.Snapshot
import QuestRouter.Protocol.PgHook

/-!
# Session relay

Session statements go to one backend connection of the session. The shard is chosen and stored before the
connection is made, so a session whose first connection fails stays with that shard.
-/

namespace QuestRouter.Metadata.ClusterSnapshot
open Text Routing

def shardById (snap : ClusterSnapshot) (id : Nat) (protocol : Protocol) : Except RoutingError ShardConfig := do
  snap.ensureMinHealthy protocol
  match snap.ring.shardById id with
  | none => .error (.shardNotFound (decimal id))
  | some shard => if snap.isExcluded id protocol then .error (.shardUnhealthy id) else .ok shard

def defaultHealthyShard (snap : ClusterSnapshot) (protocol : Protocol) : Except RoutingError ShardConfig := do
  snap.ensureMinHealthy protocol
  match snap.ring.shards.find? fun s => !snap.isExcluded s.id protocol with
  | none => .error (.insufficientHealthyShards (max snap.minHealthyShards 1) 0)
  | some shard => .ok shard

end QuestRouter.Metadata.ClusterSnapshot

namespace QuestRouter.Protocol
open Text Routing Metadata

/-- A backend connection, numbered by whoever opens it. -/
abbrev BackendClient := Nat

structure ConnBackendState where
  backends : HashMap Nat BackendClient := ∅
  currentShard : Option Nat := none

/-- What one passthrough statement meets: the snapshots in force when a shard is chosen and when it is connected
to, what becomes of the connection, with its configuration, and of the query. -/
structure Relayed (R : Type) where
  choosing : ClusterSnapshot
  connecting : ClusterSnapshot
  connect : ShardConfig → Except Str BackendClient
  simpleQuery : BackendClient → Except Str (List R)

namespace ConnBackendState

variable {R : Type} (firstShard : Nat)

/-- The first shard that is healthy, or the first of the configuration. -/
def defaultShardId (seen : Relayed R) : Nat :=
  match seen.choosing.defaultHealthyShard .pg with
  | .ok shard => shard.id
  | .error _ => firstShard

def resolveShardId (seen : Relayed R) (current : Option Nat) : Nat := current.getD (defaultShardId firstShard seen)

def connectBackend (seen : Relayed R) (conn : ConnBackendState) (shardId : Nat) :
    Except PgWireError BackendClient × ConnBackendState :=
  match conn.backends.get shardId with
  | some client => (.ok client, conn)
  | none =>
    match seen.connecting.shardById shardId .pg with
    | .error e => (.error (.routing e), conn)
    | .ok shard =>
      match seen.connect shard with
      | .error e => (.error (.wire e), conn)
      | .ok client => (.ok client, { conn with backends := conn.backends.insert shardId client })

def firstResponse (seen : Relayed R) (client : BackendClient) : Except PgWireError R :=
  match seen.simpleQuery client with
  | .error e => .error (.wire e)
  | .ok [] => .error (.wire "empty backend response".toList)
  | .ok (response :: _) => .ok response

/-- `relay_passthrough`; the shard is the session's before the connection is there. -/
def relayPassthrough (conn : ConnBackendState) (seen : Relayed R) : Except PgWireError R × ConnBackendState :=
  let shardId := resolveShardId firstShard seen conn.currentShard
  match connectBackend seen { conn with currentShard := some shardId } shardId with
  | (.error e, conn) => (.error e, conn)
  | (.ok client, conn) => (firstResponse seen client, conn)

/-- A session after these statements. -/
def session (statements : List (Relayed R)) : ConnBackendState :=
  statements.foldl (fun conn seen => (relayPassthrough firstShard conn seen).2) {}

/-- A statement that fails while the session has no connection leaves it as it was, so that the next one goes to
the default shard. -/
def LeavesNoTrace (conn : ConnBackendState) (seen : Relayed R) : Prop :=
  (∃ e, (relayPassthrough firstShard conn seen).1 = .error e) → (relayPassthrough firstShard conn seen).2.backends = ∅ →
    (relayPassthrough firstShard conn seen).2 = conn ∧
      ∀ next : Relayed R, resolveShardId firstShard next (relayPassthrough firstShard conn seen).2.currentShard =
        defaultShardId firstShard next

/-- A statement of a session that has a connection goes to its shard. -/
def Sticks (conn : ConnBackendState) (seen : Relayed R) : Prop :=
  ∀ shardId, (conn.backends.get shardId).isSome = true → resolveShardId firstShard seen conn.currentShard = shardId

def NeverPinned (statements : List (Relayed R)) : Prop :=
  ∀ before seen after, statements = before ++ seen :: after →
    LeavesNoTrace firstShard (session firstShard before) seen ∧ Sticks firstShard (session firstShard before) seen

/-- The shard chosen for the statement is known, healthy enough and can be connected to. -/
def Connects (conn : ConnBackendState) (seen : Relayed R) : Prop :=
  ∃ shard client, seen.connecting.shardById (resolveShardId firstShard seen conn.currentShard) .pg = .ok shard ∧
    seen.connect shard = .ok client

/-- No statement fails to connect while the session has no connection. -/
def FirstConnects (statements : List (Relayed R)) : Prop :=
  ∀ before seen after, statements = before ++ seen :: after →
    (session firstShard before).backends = ∅ → Connects firstShard (session firstShard before) seen

variable {firstShard} {conn : ConnBackendState} {seen : Relayed R}

/-! ### One statement -/

/-- The connections of a session are all to its current shard. -/
def OneShard (conn : ConnBackendState) : Prop :=
  ∀ shardId, (conn.backends.get shardId).isSome = true → conn.currentShard = some shardId

theorem get_empty (shardId : Nat) : HashMap.get (∅ : HashMap Nat BackendClient) shardId = none := rfl

/-- What a statement does to the session: the shard is stored, and its connection added if there was none. -/
theorem relay_cases (firstShard : Nat) (conn : ConnBackendState) (seen : Relayed R) :
    ∃ shardId, shardId = resolveShardId firstShard seen conn.currentShard ∧
      (relayPassthrough firstShard conn seen).2.currentShard = some shardId ∧
      (((conn.backends.get shardId).isSome = true ∧ (relayPassthrough firstShard conn seen).2.backends = conn.backends) ∨
        (∃ client, Connects firstShard conn seen ∧
          (relayPassthrough firstShard conn seen).2.backends = conn.backends.insert shardId client) ∨
        (conn.backends.get shardId = none ∧ ¬ Connects firstShard conn seen ∧
          (relayPassthrough firstShard conn seen).2.backends = conn.backends ∧
          ∃ e, (relayPassthrough firstShard conn seen).1 = .error e)) := by
  refine ⟨_, rfl, ?_⟩
  unfold relayPassthrough connectBackend Connects
  dsimp only
  cases present : conn.backends.get (resolveShardId firstShard seen conn.currentShard) with
  | some client => exact ⟨rfl, .inl ⟨rfl, rfl⟩⟩
  | none =>
    dsimp only
    cases found : seen.connecting.shardById (resolveShardId firstShard seen conn.currentShard) .pg with
    | error e => exact ⟨rfl, .inr (.inr ⟨rfl, by simp, rfl, _, rfl⟩)⟩
    | ok shard =>
      dsimp only
      cases opened : seen.connect shard with
      | error e => exact ⟨rfl, .inr (.inr ⟨rfl, by simp [opened], rfl, _, rfl⟩)⟩
      | ok client => exact ⟨rfl, .inr (.inl ⟨client, ⟨shard, client, rfl, opened⟩, rfl⟩)⟩

theorem relay_oneShard (one : OneShard conn) : OneShard (relayPassthrough firstShard conn seen).2 := by
  obtain ⟨shardId, chosen, current, same | ⟨client, _, added⟩ | ⟨_, _, same, _⟩⟩ := relay_cases firstShard conn seen
  all_goals intro other present
  · rw [same.2] at present
    rw [current, chosen, one other present]
    rfl
  · rw [added] at present
    by_cases here : other = shardId
    · rw [current, here]
    · rw [HashMap.get_insert_ne _ _ here] at present
      rw [current, chosen, one other present]
      rfl
  · rw [same] at present
    rw [current, chosen, one other present]
    rfl

theorem sticks_of_oneShard (one : OneShard conn) : Sticks firstShard conn seen := by
  intro shardId present
  rw [one shardId present]
  rfl

theorem insert_ne_empty (m : HashMap Nat BackendClient) (shardId : Nat) (client : BackendClient) :
    m.insert shardId client ≠ ∅ := by
  intro same
  have found := HashMap.get_insert m shardId client
  rw [same, get_empty] at found
  cases found

/-! ### Sessions -/

theorem session_concat (statements : List (Relayed R)) (seen : Relayed R) :
    session firstShard (statements ++ [seen]) = (relayPassthrough firstShard (session firstShard statements) seen).2 := by
  simp [session]

theorem session_oneShard (statements : List (Relayed R)) : OneShard (session firstShard statements) := by
  induction statements using List.reverseRecOn with
  | nil =>
    intro shardId present
    rw [show (session firstShard ([] : List (Relayed R))).backends = ∅ from rfl, get_empty] at present
    cases present
  | append_singleton statements seen ih =>
    rw [session_concat]
    exact relay_oneShard ih

theorem NeverPinned.earlier {statements : List (Relayed R)} {later : List (Relayed R)}
    (never : NeverPinned firstShard (statements ++ later)) : NeverPinned firstShard statements := by
  intro before seen after split
  exact never before seen (after ++ later) (by rw [split, List.append_assoc, List.cons_append])

/-- A session that leaves no trace of failures, and has no connection, has had no statement. -/
theorem NeverPinned.unused {statements : List (Relayed R)} (never : NeverPinned firstShard statements)
    (empty : (session firstShard statements).backends = ∅) : statements = [] := by
  induction statements using List.reverseRecOn with
  | nil => rfl
  | append_singleton statements seen ih =>
    rw [session_concat] at empty
    obtain ⟨shardId, _, current, same | ⟨client, _, added⟩ | ⟨_, _, same, failed⟩⟩ :=
      relay_cases firstShard (session firstShard statements) seen
    · rw [← same.2, empty, get_empty] at same
      cases same.1
    · exact (insert_ne_empty _ _ _ (added.symm.trans empty)).elim
    · obtain ⟨kept, _⟩ := (never statements seen [] rfl).1 failed empty
      rw [ih never.earlier (same.symm.trans empty)] at kept current
      rw [kept] at current
      cases current

/-- A connection stays. -/
theorem session_connected {statements : List (Relayed R)} (connects : FirstConnects firstShard statements)
    (some : statements ≠ []) : (session firstShard statements).backends ≠ ∅ := by
  induction statements using List.reverseRecOn with
  | nil => exact (some rfl).elim
  | append_singleton statements seen ih =>
    rw [session_concat]
    have earlier : FirstConnects firstShard statements := by
      intro before next after split
      exact connects before next (after ++ [seen]) (by rw [split]; simp)
    obtain ⟨shardId, chosen, _, same | ⟨client, _, added⟩ | ⟨absent, refused, same, _⟩⟩ :=
      relay_cases firstShard (session firstShard statements) seen
    · intro empty
      rw [same.2] at empty
      rw [empty, get_empty] at same
      cases same.1
    · rw [added]
      exact insert_ne_empty _ _ _
    · rw [same]
      by_cases first : statements = []
      · exact (refused (connects statements seen [] rfl (by rw [first]; rfl))).elim
      · exact ih earlier first

/-- A session is never pinned to a shard it has no connection to exactly if its first connection succeeds. -/
theorem neverPinned_iff (firstShard : Nat) (statements : List (Relayed R)) :
    NeverPinned firstShard statements ↔ FirstConnects firstShard statements := by
  constructor
  · intro never before seen after split empty
    by_contra refused
    obtain ⟨noTrace, _⟩ := never before seen after split
    obtain ⟨shardId, _, current, same | ⟨client, connects, _⟩ | ⟨_, _, same, failed⟩⟩ :=
      relay_cases firstShard (session firstShard before) seen
    · rw [empty, get_empty] at same
      cases same.1
    · exact refused connects
    · obtain ⟨kept, _⟩ := noTrace failed (same.trans empty)
      have first : before = [] := by
        rw [split] at never
        exact never.earlier.unused empty
      rw [kept, first] at current
      cases current
  · intro connects before seen after split
    refine ⟨?_, sticks_of_oneShard (session_oneShard before)⟩
    intro _ empty
    have upTo : FirstConnects firstShard (before ++ [seen]) := by
      intro first next rest same
      exact connects first next (rest ++ after) (by rw [split, List.append_cons, same]; simp)
    rw [← session_concat] at empty
    exact (session_connected upTo (by simp) empty).elim

/-! The first of two shards is down for longer than the monitor knows. -/

def bothUp : ClusterSnapshot := twoShards "B".toList []

def firstDown : ClusterSnapshot := { bothUp with health := bothUp.health.insert 0 ⟨true, false⟩ }

/-- The connection to the first shard is refused. -/
def refusedFirst : Relayed Str where
  choosing := bothUp
  connecting := bothUp
  connect shard := if shard.id = 0 then .error "connection refused".toList else .ok 7
  simpleQuery _ := .ok ["SET".toList]

/-- After it the first shard is known to be down, and the default is the second. -/
def healthKnown : Relayed Str := { refusedFirst with choosing := firstDown, connecting := firstDown }

example : defaultShardId 0 healthKnown = 1 ∧
    (relayPassthrough 0 (session 0 [refusedFirst]) healthKnown).1 = .error (.routing (.shardUnhealthy 0)) ∧
    (relayPassthrough 0 {} healthKnown).1 = .ok "SET".toList := by decide +kernel

/-- The session stays with the shard that it could not connect to. -/
theorem session_pinned : ¬ NeverPinned 0 [refusedFirst, healthKnown] := by
  intro never
  obtain ⟨noTrace, _⟩ := never [] refusedFirst [healthKnown] rfl
  have failed : (relayPassthrough 0 (session 0 ([] : List (Relayed Str))) refusedFirst).1 =
      .error (.wire "connection refused".toList) := by decide +kernel
  obtain ⟨_, next⟩ := noTrace ⟨_, failed⟩ rfl
  exact absurd (next healthKnown) (by decide +kernel)

end ConnBackendState
end QuestRouter.Protocol
