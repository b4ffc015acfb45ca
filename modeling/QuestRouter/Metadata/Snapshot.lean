import QuestRouter.Routing.Error
import QuestRouter.Routing.Ring
import QuestRouter.Routing.Schema

/-!
# Cluster snapshot

The ring, the table registry and the health of the shards, as one immutable value.
-/

namespace QuestRouter.Metadata
open Text Routing

inductive Protocol where
  | ilp
  | pg
  deriving DecidableEq, Repr

structure ShardHealth where
  ilpOk : Bool
  pgOk : Bool
  deriving DecidableEq, Repr

namespace ShardHealth

def healthyAll : ShardHealth := ⟨true, true⟩

def isOkFor (h : ShardHealth) : Protocol → Bool
  | .ilp => h.ilpOk
  | .pg => h.pgOk

end ShardHealth

structure ClusterSnapshot where
  ring : ShardRing
  tableRegistry : TableRegistry
  health : HashMap Nat ShardHealth
  excludeUnhealthy : Bool
  minHealthyShards : Nat

namespace ClusterSnapshot

def new (hashring : List VNode → Probe → Option VNode) (shards : List ShardConfig)
    (tableRegistry : TableRegistry) (excludeUnhealthy : Bool) (minHealthyShards : Nat) :
    ClusterSnapshot :=
  { ring := .fromShards hashring shards
    tableRegistry
    health := .collect (shards.map fun s => (s.id, .healthyAll))
    excludeUnhealthy
    minHealthyShards }

def isExcluded (snap : ClusterSnapshot) (shardId : Nat) (protocol : Protocol) : Bool :=
  snap.excludeUnhealthy &&
    match snap.health.get shardId with
    | some h => !h.isOkFor protocol
    | none => false

/-- Shards whose health entry is good; a shard without an entry is not among them. -/
def healthyShards (snap : ClusterSnapshot) (protocol : Protocol) : List ShardConfig :=
  snap.ring.shards.filter fun s =>
    match snap.health.get s.id with
    | some h => h.isOkFor protocol
    | none => false

def healthyCount (snap : ClusterSnapshot) (protocol : Protocol) : Nat :=
  if !snap.excludeUnhealthy then snap.ring.shardCount else (snap.healthyShards protocol).length

def healthyShardIds (snap : ClusterSnapshot) (protocol : Protocol) : List Nat :=
  if !snap.excludeUnhealthy then snap.ring.shards.map (·.id) else (snap.healthyShards protocol).map (·.id)

def ensureMinHealthy (snap : ClusterSnapshot) (protocol : Protocol) : Except RoutingError Unit :=
  if !snap.excludeUnhealthy then .ok ()
  else
    let available := snap.healthyCount protocol
    if available < snap.minHealthyShards then
      .error (.insufficientHealthyShards snap.minHealthyShards available)
    else .ok ()

def shardForKey (snap : ClusterSnapshot) (key : Str) (protocol : Protocol) :
    Except RoutingError ShardConfig := do
  snap.ensureMinHealthy protocol
  match snap.ring.shardByKeyFiltered key fun id => snap.isExcluded id protocol with
  | some shard => .ok shard
  | none => .error (.shardNotFound key)

/-! ### Keyed lookups -/

theorem shardForKey_ok {snap : ClusterSnapshot} {key : Str} {protocol : Protocol} {shard : ShardConfig} :
    snap.shardForKey key protocol = .ok shard ↔ snap.ensureMinHealthy protocol = .ok () ∧
      snap.ring.shardByKeyFiltered key (fun id => snap.isExcluded id protocol) = some shard := by
  unfold shardForKey
  cases healthy : snap.ensureMinHealthy protocol with
  | error e => simp [bind, Except.bind]
  | ok =>
    simp only [bind, Except.bind, true_and]
    split <;> simp_all

theorem shardForKey_error {snap : ClusterSnapshot} {key : Str} {protocol : Protocol} {e : RoutingError}
    (h : snap.shardForKey key protocol = .error e) :
    (∃ required available, e = .insufficientHealthyShards required available) ∨ e = .shardNotFound key := by
  unfold shardForKey at h
  cases healthy : snap.ensureMinHealthy protocol with
  | error few =>
    rw [healthy] at h
    cases h
    unfold ensureMinHealthy at healthy
    dsimp only at healthy
    split at healthy
    · cases healthy
    split at healthy
    · cases healthy
      exact .inl ⟨_, _, rfl⟩
    · cases healthy
  | ok =>
    rw [healthy] at h
    simp only [bind, Except.bind] at h
    split at h
    · cases h
    · cases h
      exact .inr rfl

/-- Every configured shard answers both protocols, or health is not looked at. -/
def AllHealthy (snap : ClusterSnapshot) : Prop :=
  ∀ shard ∈ snap.ring.shards, ∀ protocol, snap.isExcluded shard.id protocol = false

theorem shardForKey_unique {snap : ClusterSnapshot} (healthy : snap.AllHealthy) {key : Str}
    {p q : Protocol} {s t : ShardConfig} (hs : snap.shardForKey key p = .ok s)
    (ht : snap.shardForKey key q = .ok t) : s = t := by
  have left := (shardForKey_ok.mp hs).2
  have right := (shardForKey_ok.mp ht).2
  have same : ∀ shard ∈ snap.ring.shards, snap.isExcluded shard.id p = snap.isExcluded shard.id q :=
    fun shard member => (healthy shard member p).trans (healthy shard member q).symm
  rw [ShardRing.shardByKeyFiltered_congr (g := fun id => snap.isExcluded id q) key same] at left
  exact Option.some.inj (left.symm.trans right)

end ClusterSnapshot

/-! ### A cluster of two shards -/

def shardA : ShardConfig := ⟨0, "a:9009".toList, "a:8812".toList, 1, 1⟩
def shardB : ShardConfig := ⟨1, "b:9009".toList, "b:8812".toList, 1, 1⟩

/-- A ring that sends one key to the second shard and every other to the first. -/
def ringSending (key : Str) (_ : List VNode) : Probe → Option VNode
  | .key k => some (if k = key then ⟨1, 0⟩ else ⟨0, 0⟩)
  | .salted .. => some ⟨0, 0⟩

def twoShards (key : Str) (tables : List TableRoutingConfig) : ClusterSnapshot :=
  .new (ringSending key) [shardA, shardB] (.fromConfig tables) true 1

/-- The first shard and the second one, which has the key `B`. -/
def tradesCluster : ClusterSnapshot := twoShards "B".toList [⟨"trades".toList, true, none⟩]

def sendingKey (key : Str) (registry : TableRegistry) : ClusterSnapshot :=
  .new (ringSending key) [shardA, shardB] registry true 1

theorem sendingKey_allHealthy (key : Str) (registry : TableRegistry) :
    (sendingKey key registry).AllHealthy := by
  intro shard member protocol
  have members : shard = shardA ∨ shard = shardB := by
    simpa [sendingKey, ClusterSnapshot.new, ShardRing.fromShards] using member
  rcases members with rfl | rfl <;> cases protocol <;> rfl

theorem sendingKey_shardForKey (key k : Str) (registry : TableRegistry) (protocol : Protocol) :
    (sendingKey key registry).shardForKey k protocol = .ok (if k = key then shardB else shardA) := by
  rw [ClusterSnapshot.shardForKey_ok]
  constructor
  · cases protocol <;> rfl
  · have probe : (sendingKey key registry).ring.ring (.key k) = some (if k = key then ⟨1, 0⟩ else ⟨0, 0⟩) := rfl
    by_cases same : k = key
    · have found : (sendingKey key registry).ring.shardByKey k = some shardB := by
        rw [ShardRing.shardByKey, probe, if_pos same]
        rfl
      rw [ShardRing.shardByKeyFiltered, found, if_pos same]
      cases protocol <;> rfl
    · have found : (sendingKey key registry).ring.shardByKey k = some shardA := by
        rw [ShardRing.shardByKey, probe, if_neg same]
        rfl
      rw [ShardRing.shardByKeyFiltered, found, if_neg same]
      cases protocol <;> rfl

end QuestRouter.Metadata
