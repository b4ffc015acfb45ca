import QuestRouter.Federated.Provider
import QuestRouter.Federated.Shards

/-!
# Health of scanned shards

A scan through the pool agrees with the fan-out as long as no configured shard is excluded and there are
enough of them: the scan reads no health, so one shard reported down is enough to tell them apart.
-/

namespace QuestRouter.Federated
open Text Metadata Routing Pool

section
variable {hashring : List VNode → Probe → Option VNode} {shards : List ShardConfig}
  {tableRegistry : TableRegistry} {excludeUnhealthy : Bool} {minHealthyShards : Nat} {reports : List ReportHealth}
  {snap : ClusterSnapshot}
  (tracks : Tracks (.new hashring shards tableRegistry excludeUnhealthy minHealthyShards) reports snap)
include tracks

theorem tracked_shards : snap.ring.shards = shards := by
  rw [tracks.ring]
  rfl

theorem tracked_excluded {shard : ShardConfig} (member : shard ∈ shards) :
    snap.isExcluded shard.id .pg = (excludeUnhealthy && !(reportedHealth reports shard.id).pgOk) := by
  rw [← tracked_shards tracks] at member
  rw [tracks.isExcluded member, tracks.excludeUnhealthy]
  rfl

theorem mem_healthyShardIds {id : Nat} : id ∈ snap.healthyShardIds .pg ↔
    ∃ shard ∈ shards, shard.id = id ∧ (excludeUnhealthy && !(reportedHealth reports id).pgOk) = false := by
  rw [tracks.healthyShardIds, tracked_shards tracks, List.mem_map]
  constructor
  · rintro ⟨shard, kept, rfl⟩
    obtain ⟨member, usable⟩ := List.mem_filter.mp kept
    rw [tracked_excluded tracks member, Bool.not_eq_true'] at usable
    exact ⟨shard, member, rfl, usable⟩
  · rintro ⟨shard, member, rfl, usable⟩
    refine ⟨shard, List.mem_filter.mpr ⟨member, ?_⟩, rfl⟩
    rw [tracked_excluded tracks member, usable]
    rfl

theorem healthyPgShardIds_error :
    (∃ e, healthyPgShardIds snap = .error e) ↔
      excludeUnhealthy = true ∧ snap.healthyCount .pg < minHealthyShards := by
  have excludes : snap.excludeUnhealthy = excludeUnhealthy := tracks.excludeUnhealthy
  have min : snap.minHealthyShards = minHealthyShards := tracks.minHealthyShards
  unfold healthyPgShardIds ClusterSnapshot.ensureMinHealthy
  rw [excludes, min]
  cases excludeUnhealthy with
  | false => simp [bind, Except.bind, pure, Except.pure]
  | true =>
    simp only [Bool.not_true, Bool.false_eq_true, ↓reduceIte, true_and]
    split
    · rename_i few
      exact ⟨fun _ => few, fun _ => ⟨_, rfl⟩⟩
    · rename_i enough
      exact ⟨nofun, fun few => (enough few).elim⟩

/-- No configured shard is excluded, and enough are configured. -/
def AllUsable (shards : List ShardConfig) (excludeUnhealthy : Bool) (minHealthyShards : Nat)
    (reports : List ReportHealth) : Prop :=
  excludeUnhealthy = true →
    (∀ shard ∈ shards, (reportedHealth reports shard.id).pgOk = true) ∧ minHealthyShards ≤ shards.length

omit tracks in
theorem AllUsable.usable (usable : AllUsable shards excludeUnhealthy minHealthyShards reports)
    {shard : ShardConfig} (member : shard ∈ shards) :
    (excludeUnhealthy && !(reportedHealth reports shard.id).pgOk) = false := by
  cases excludes : excludeUnhealthy with
  | false => rfl
  | true => rw [(usable excludes).1 shard member]; rfl

theorem healthyCount_usable (usable : ∀ shard ∈ shards,
    (excludeUnhealthy && !(reportedHealth reports shard.id).pgOk) = false) :
    snap.healthyCount .pg = shards.length := by
  rw [tracks.healthyCount, tracked_shards tracks, List.filter_eq_self.mpr]
  intro shard member
  rw [tracked_excluded tracks member, usable shard member]
  rfl

theorem scans_of_usable (usable : AllUsable shards excludeUnhealthy minHealthyShards reports)
    (maxPerShard : Nat) : ScansHealthyShards (.new shards maxPerShard) snap := by
  intro x retry β typedBatch sql same scan
  have each : ∀ shard ∈ shards, _ := fun shard member => usable.usable member
  refine ⟨fun id queried => ?_, fun unfailed id healthy => ?_, ?_⟩
  · obtain ⟨shard, member, rfl⟩ := shardIds_new.mp (fetchAllBatches_queried queried)
    exact (mem_healthyShardIds tracks).mpr ⟨shard, member, rfl, each shard member⟩
  · obtain ⟨shard, member, rfl, _⟩ := (mem_healthyShardIds tracks).mp healthy
    rw [fetchAllBatches_all unfailed]
    exact shardIds_new.mpr ⟨shard, member, rfl⟩
  · constructor
    · rintro ⟨e, failed⟩
      obtain ⟨id, _, query⟩ := fetchAllBatches_external failed
      obtain ⟨message, impossible⟩ := Arrow.queryShard_error query
      cases impossible
    · rintro ⟨e, failed⟩
      rw [queryAllShards_routing, same] at failed
      obtain ⟨excludes, few⟩ := (healthyPgShardIds_error tracks).mp ⟨e, failed⟩
      rw [healthyCount_usable tracks each] at few
      exact absurd (usable excludes).2 (Nat.not_le.mpr few)

omit tracks in
/-- Every client answers with no rows. -/
def answering (snap : ClusterSnapshot) : FederatedExecutor :=
  { sending [] (fun _ => []) with snapshot := snap }

theorem usable_of_scans {maxPerShard : Nat} (scans : ScansHealthyShards (.new shards maxPerShard) snap) :
    AllUsable shards excludeUnhealthy minHealthyShards reports := by
  intro excludes
  obtain ⟨asked, _, insufficient⟩ := scans (answering snap) (fun _ _ => .ok []) Unit (fun _ _ => .ok ()) [] rfl
  have answered : ∀ e, (fetchAllBatches (.new shards maxPerShard) (answering snap) (fun _ _ => .ok [])
      (fun _ _ => .ok ()) []).2 ≠ Except.error (α := List Unit) (.external e) := by
    intro e failed
    obtain ⟨id, _, query⟩ := fetchAllBatches_external failed
    cases query
  have usable : ∀ shard ∈ shards, (excludeUnhealthy && !(reportedHealth reports shard.id).pgOk) = false := by
    intro shard member
    have queried := asked shard.id (by
      rw [fetchAllBatches_all answered]
      exact shardIds_new.mpr ⟨shard, member, rfl⟩)
    obtain ⟨_, _, _, usable⟩ := (mem_healthyShardIds tracks).mp queried
    exact usable
  refine ⟨fun shard member => by simpa [excludes] using usable shard member, ?_⟩
  by_contra few
  obtain ⟨e, failed⟩ := (healthyPgShardIds_error tracks).mpr
    ⟨excludes, by rw [healthyCount_usable tracks usable]; exact Nat.lt_of_not_le few⟩
  obtain ⟨routing, scanned⟩ := insufficient.mpr ⟨e, queryAllShards_routing.mpr failed⟩
  exact answered _ scanned

end

/-- After any health reports, table scans ask exactly the shards that the fan-out asks if and only if every
configured shard is usable. -/
theorem fetchAllBatches_healthy_iff (hashring : List VNode → Probe → Option VNode) (shards : List ShardConfig)
    (tableRegistry : TableRegistry) (excludeUnhealthy : Bool) (minHealthyShards maxPerShard : Nat)
    (reports : List ReportHealth) :
    ScansHealthyShards (.new shards maxPerShard)
        (MetadataActor.run (.new hashring shards tableRegistry excludeUnhealthy minHealthyShards) reports) ↔
      AllUsable shards excludeUnhealthy minHealthyShards reports := by
  have tracks := (tracks_new hashring shards tableRegistry excludeUnhealthy minHealthyShards).run reports
  exact ⟨usable_of_scans tracks, fun usable => scans_of_usable tracks usable maxPerShard⟩

/-- The second of two shards is reported down for PG. -/
def secondDown : ClusterSnapshot := MetadataActor.run (sendingKey [] ⟨∅⟩) [⟨1, true, false⟩]

theorem fetchAllBatches_asks_excluded :
    1 ∉ secondDown.healthyShardIds .pg ∧
      (fetchAllBatches (.new [shardA, shardB] 4) (answering secondDown) (fun _ _ => .ok []) (fun _ _ => .ok ())
        []).1 = [0, 1] ∧
      ¬ ScansHealthyShards (.new [shardA, shardB] 4) secondDown := by
  have excluded : 1 ∉ secondDown.healthyShardIds .pg := by decide
  have asked : (fetchAllBatches (.new [shardA, shardB] 4) (answering secondDown) (fun _ _ => .ok [])
      (fun _ _ => .ok ()) []).1 = [0, 1] := by decide
  refine ⟨excluded, asked, fun scans => excluded ?_⟩
  refine (scans (answering secondDown) (fun _ _ => .ok []) Unit (fun _ _ => .ok ()) [] rfl).1 1 ?_
  rw [asked]
  simp

end QuestRouter.Federated
