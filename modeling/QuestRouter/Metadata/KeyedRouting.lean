import QuestRouter.Metadata.Actor
import QuestRouter.Routing.Failover

/-!
# Keyed routing under health reports

A key goes to its primary shard while that is not excluded, and else to some shard that is not. Writes
and reads exclude shards separately, so they choose one shard exactly if each could have chosen the
other's.
-/

namespace QuestRouter.Routing.ShardRing
open Text
variable {r : ShardRing} {key : Str} {isExcluded : Nat → Bool}

theorem shardByKeyFiltered_primary {primary : ShardConfig} (found : r.shardByKey key = some primary)
    (included : isExcluded primary.id = false) : r.shardByKeyFiltered key isExcluded = some primary := by
  have nonempty : ¬ r.shards.isEmpty = true := by
    intro empty
    simp [shardByKey, empty] at found
  rw [shardByKeyFiltered, if_neg nonempty, found, Option.filter_some, included]
  rfl

theorem shardByKeyFiltered_none :
    r.shardByKeyFiltered key isExcluded = none ↔ ∀ shard ∈ r.shards, isExcluded shard.id = true := by
  constructor
  · intro missing shard member
    have nonempty : ¬ r.shards.isEmpty = true := by
      intro empty
      rw [List.isEmpty_iff.mp empty] at member
      cases member
    rw [shardByKeyFiltered, if_neg nonempty] at missing
    split at missing
    · cases missing
    split at missing
    · cases missing
    have nothing := List.filter_eq_nil_iff.mp (List.argmin_eq_none.mp missing) shard member
    simpa using nothing
  · intro excluded
    rw [Option.eq_none_iff_forall_ne_some]
    intro shard found
    obtain ⟨member, included⟩ := shardByKeyFiltered_spec found
    rw [excluded shard member] at included
    cases included

end QuestRouter.Routing.ShardRing

namespace QuestRouter.Metadata
open Text Routing ClusterSnapshot
variable {snap : ClusterSnapshot} {key : Str} {protocol : Protocol}

theorem ensureMinHealthy_eq (snap : ClusterSnapshot) (protocol : Protocol) :
    snap.ensureMinHealthy protocol =
      if snap.excludeUnhealthy = true ∧ snap.healthyCount protocol < snap.minHealthyShards then
        .error (.insufficientHealthyShards snap.minHealthyShards (snap.healthyCount protocol))
      else .ok () := by
  unfold ensureMinHealthy
  cases snap.excludeUnhealthy <;> simp

theorem shardForKey_eq (snap : ClusterSnapshot) (key : Str) (protocol : Protocol) :
    snap.shardForKey key protocol =
      if snap.excludeUnhealthy = true ∧ snap.healthyCount protocol < snap.minHealthyShards then
        .error (.insufficientHealthyShards snap.minHealthyShards (snap.healthyCount protocol))
      else
        match snap.ring.shardByKeyFiltered key fun id => snap.isExcluded id protocol with
        | some shard => .ok shard
        | none => .error (.shardNotFound key) := by
  unfold shardForKey
  rw [ensureMinHealthy_eq]
  split <;> rfl

def TooFew (snap : ClusterSnapshot) (protocol : Protocol) : Prop :=
  snap.excludeUnhealthy = true ∧
    (snap.ring.shards.filter fun s => !snap.isExcluded s.id protocol).length < snap.minHealthyShards

/-- What the choice of a shard for a key may be. -/
structure ChoosesHealthy (snap : ClusterSnapshot) (key : Str) (protocol : Protocol) : Prop where
  found : ∀ shard, snap.shardForKey key protocol = .ok shard →
    shard ∈ snap.ring.shards ∧ snap.isExcluded shard.id protocol = false
  primary : ∀ shard primary, snap.shardForKey key protocol = .ok shard →
    snap.ring.shardByKey key = some primary → snap.isExcluded primary.id protocol = false → shard = primary
  insufficient : (∃ required available,
    snap.shardForKey key protocol = .error (.insufficientHealthyShards required available)) ↔ TooFew snap protocol
  notFound : ¬ TooFew snap protocol → ((∃ k, snap.shardForKey key protocol = .error (.shardNotFound k)) ↔
    ∀ shard ∈ snap.ring.shards, snap.isExcluded shard.id protocol = true)
  answers : (∃ shard, snap.shardForKey key protocol = .ok shard) ↔ ¬ TooFew snap protocol ∧
    ∃ shard ∈ snap.ring.shards, snap.isExcluded shard.id protocol = false

theorem Tracks.choosesHealthy {initial : ClusterSnapshot} {reports : List ReportHealth}
    (tracks : Tracks initial reports snap) (key : Str) (protocol : Protocol) :
    ChoosesHealthy snap key protocol := by
  have few : TooFew snap protocol ↔
      snap.excludeUnhealthy = true ∧ snap.healthyCount protocol < snap.minHealthyShards := by
    rw [TooFew, tracks.healthyCount]
  have outcome := shardForKey_eq snap key protocol
  have none : snap.ring.shardByKeyFiltered key (fun id => snap.isExcluded id protocol) = none ↔ _ :=
    ShardRing.shardByKeyFiltered_none
  by_cases tooFew : TooFew snap protocol
  · rw [if_pos (few.mp tooFew)] at outcome
    constructor <;> simp [outcome, tooFew]
  rw [if_neg fun h => tooFew (few.mpr h)] at outcome
  cases lookup : snap.ring.shardByKeyFiltered key fun id => snap.isExcluded id protocol with
  | none =>
    rw [lookup] at outcome
    have excluded := none.mp lookup
    constructor
    · simp [outcome]
    · simp [outcome]
    · simp [outcome, tooFew]
    · exact fun _ => iff_of_true ⟨key, outcome⟩ excluded
    · simp only [outcome, reduceCtorEq, exists_false, false_iff, not_and, not_exists]
      intro _ shard member
      simp [excluded shard member]
  | some shard =>
    rw [lookup] at outcome
    obtain ⟨member, included⟩ := ShardRing.shardByKeyFiltered_spec lookup
    constructor
    · intro s same
      obtain rfl := Except.ok.inj (outcome.symm.trans same)
      exact ⟨member, included⟩
    · intro s primary same first usable
      obtain rfl := Except.ok.inj (outcome.symm.trans same)
      exact Option.some.inj (lookup.symm.trans (ShardRing.shardByKeyFiltered_primary first usable))
    · simp [outcome, tooFew]
    · simp only [outcome, reduceCtorEq, exists_false, false_iff, not_forall]
      exact fun _ => ⟨shard, member, by simp [included]⟩
    · exact iff_of_true ⟨shard, outcome⟩ ⟨tooFew, shard, member, included⟩

/-- Under every snapshot that health reports lead to, keyed routing picks a healthy shard exactly when
it may. -/
theorem run_choosesHealthy (hashring : List VNode → Probe → Option VNode) (shards : List ShardConfig)
    (tableRegistry : TableRegistry) (excludeUnhealthy : Bool) (minHealthyShards : Nat)
    (reports : List ReportHealth) (key : Str) (protocol : Protocol) :
    ChoosesHealthy (MetadataActor.run (.new hashring shards tableRegistry excludeUnhealthy minHealthyShards) reports)
      key protocol :=
  ((tracks_new hashring shards tableRegistry excludeUnhealthy minHealthyShards).run reports).choosesHealthy
    key protocol

/-! ### Writes and reads of a key -/

theorem shardForKey_both {p q : Protocol} {shard : ShardConfig} (found : snap.shardForKey key p = .ok shard)
    (included : snap.isExcluded shard.id q = false) :
    snap.ring.shardByKeyFiltered key (fun id => snap.isExcluded id p || snap.isExcluded id q) = some shard := by
  obtain ⟨_, lookup⟩ := shardForKey_ok.mp found
  have usable := (ShardRing.shardByKeyFiltered_spec lookup).2
  refine ShardRing.shardByKeyFiltered_stable ?_ lookup (by simp [usable, included])
  intro other _ out
  exact Bool.or_eq_true_iff.mpr (.inl out)

/-- A write and a read of a key meet exactly if the shard written may be read and the shard read may
be written. -/
theorem shardForKey_same_iff (snap : ClusterSnapshot) (key : Str) (w r : ShardConfig)
    (written : snap.shardForKey key .ilp = .ok w) (read : snap.shardForKey key .pg = .ok r) :
    w = r ↔ snap.isExcluded w.id .pg = false ∧ snap.isExcluded r.id .ilp = false := by
  constructor
  · rintro rfl
    have usable := (ShardRing.shardByKeyFiltered_spec (shardForKey_ok.mp written).2).2
    have readable := (ShardRing.shardByKeyFiltered_spec (shardForKey_ok.mp read).2).2
    exact ⟨readable, usable⟩
  · rintro ⟨readable, writable⟩
    have fromWrite := shardForKey_both written readable
    have fromRead := shardForKey_both read writable
    simp only [Bool.or_comm (snap.isExcluded _ .pg)] at fromRead
    exact Option.some.inj (fromWrite.symm.trans fromRead)

theorem shardForKey_same_healthy : shardB = shardB ↔
    (twoShards "B".toList []).isExcluded shardB.id .pg = false ∧
      (twoShards "B".toList []).isExcluded shardB.id .ilp = false :=
  shardForKey_same_iff (twoShards "B".toList []) "B".toList shardB shardB (by decide +kernel) (by decide +kernel)

/-- The ILP port of the primary shard is down and its PG port is up. -/
theorem ports_apart_miss :
    let snap := MetadataActor.run (twoShards "B".toList []) [⟨1, false, true⟩]
    snap.shardForKey "B".toList .ilp = .ok shardA ∧ snap.shardForKey "B".toList .pg = .ok shardB ∧
      shardA ≠ shardB := by
  decide +kernel

end QuestRouter.Metadata
