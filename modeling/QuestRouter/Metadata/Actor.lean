import QuestRouter.Metadata.Snapshot

/-!
# Metadata actor

The actor applies health reports to the snapshot, one at a time. A report that changes nothing
publishes nothing. Whatever was reported before, the health of a shard is its last report.
-/

namespace QuestRouter.Metadata
open Text Routing

/-- `MetadataMessage::ReportHealth`. -/
structure ReportHealth where
  shardId : Nat
  ilpOk : Bool
  pgOk : Bool
  deriving DecidableEq, Repr

def ReportHealth.health (report : ReportHealth) : ShardHealth := ⟨report.ilpOk, report.pgOk⟩

namespace MetadataActor

def applyHealth (current : ClusterSnapshot) (report : ReportHealth) : ClusterSnapshot :=
  let prev := (current.health.get report.shardId).getD .healthyAll
  if prev.ilpOk = report.ilpOk ∧ prev.pgOk = report.pgOk then current
  else { current with health := current.health.insert report.shardId report.health }

/-- The snapshot published after these reports. -/
def run (initial : ClusterSnapshot) (reports : List ReportHealth) : ClusterSnapshot :=
  reports.foldl applyHealth initial

end MetadataActor

def lastReport (reports : List ReportHealth) (id : Nat) : Option ReportHealth :=
  reports.reverse.find? (·.shardId == id)

/-- What the reports say of a shard; a shard not reported is healthy. -/
def reportedHealth (reports : List ReportHealth) (id : Nat) : ShardHealth :=
  ((lastReport reports id).map ReportHealth.health).getD .healthyAll

theorem reportedHealth_concat (reports : List ReportHealth) (report : ReportHealth) (id : Nat) :
    reportedHealth (reports ++ [report]) id =
      if report.shardId = id then report.health else reportedHealth reports id := by
  unfold reportedHealth lastReport
  rw [List.reverse_append, List.reverse_singleton, List.singleton_append]
  by_cases same : report.shardId = id
  · rw [List.find?_cons_of_pos (by simpa using same), if_pos same]
    rfl
  · rw [List.find?_cons_of_neg (by simpa using same), if_neg same]

/-! ### What reports keep -/

/-- The snapshot has the health reported for each shard, and for the rest is the initial one. -/
structure Tracks (initial : ClusterSnapshot) (reports : List ReportHealth) (snap : ClusterSnapshot) : Prop where
  ring : snap.ring = initial.ring
  tableRegistry : snap.tableRegistry = initial.tableRegistry
  excludeUnhealthy : snap.excludeUnhealthy = initial.excludeUnhealthy
  minHealthyShards : snap.minHealthyShards = initial.minHealthyShards
  health : ∀ id, (snap.health.get id).getD .healthyAll = reportedHealth reports id
  present : ∀ shard ∈ snap.ring.shards, (snap.health.get shard.id).isSome = true

variable {initial snap : ClusterSnapshot} {reports : List ReportHealth}

theorem Tracks.step (tracks : Tracks initial reports snap) (report : ReportHealth) :
    Tracks initial (reports ++ [report]) (MetadataActor.applyHealth snap report) := by
  unfold MetadataActor.applyHealth
  dsimp only
  split
  · rename_i unchanged
    refine { tracks with health := fun id => ?_ }
    rw [reportedHealth_concat]
    split
    · rename_i same
      subst same
      obtain ⟨ilp, pg⟩ := unchanged
      rw [ReportHealth.health, ← ilp, ← pg]
    · exact tracks.health id
  · refine { tracks with health := fun id => ?_, present := fun shard member => ?_ }
    · rw [reportedHealth_concat]
      by_cases same : report.shardId = id
      · subst same
        simp
      · rw [if_neg same]
        dsimp only
        rw [HashMap.get_insert_ne _ _ (Ne.symm same)]
        exact tracks.health id
    · by_cases same : report.shardId = shard.id
      · simp [← same]
      · dsimp only
        rw [HashMap.get_insert_ne _ _ (Ne.symm same)]
        exact tracks.present shard member

theorem Tracks.run (start : Tracks initial [] initial) (reports : List ReportHealth) :
    Tracks initial reports (MetadataActor.run initial reports) := by
  induction reports using List.reverseRecOn with
  | nil => exact start
  | append_singleton reports report ih =>
    rw [MetadataActor.run, List.foldl_append]
    exact ih.step report

/-! ### The first snapshot -/

theorem new_health (hashring : List VNode → Probe → Option VNode) (shards : List ShardConfig)
    (tableRegistry : TableRegistry) (excludeUnhealthy : Bool) (minHealthyShards id : Nat) :
    (ClusterSnapshot.new hashring shards tableRegistry excludeUnhealthy minHealthyShards).health.get id =
      if id ∈ shards.map (·.id) then some .healthyAll else none := HashMap.get_collect_const _ _ shards id

theorem tracks_new (hashring : List VNode → Probe → Option VNode) (shards : List ShardConfig)
    (tableRegistry : TableRegistry) (excludeUnhealthy : Bool) (minHealthyShards : Nat) :
    Tracks (.new hashring shards tableRegistry excludeUnhealthy minHealthyShards) []
      (.new hashring shards tableRegistry excludeUnhealthy minHealthyShards) where
  ring := rfl
  tableRegistry := rfl
  excludeUnhealthy := rfl
  minHealthyShards := rfl
  health id := by
    rw [new_health]
    split <;> rfl
  present shard member := by
    have configured : shard.id ∈ shards.map (·.id) := List.mem_map_of_mem member
    rw [new_health, if_pos configured]
    rfl

/-! ### Reading the health -/

theorem Tracks.isExcluded (tracks : Tracks initial reports snap) {shard : ShardConfig}
    (member : shard ∈ snap.ring.shards) (protocol : Protocol) :
    snap.isExcluded shard.id protocol =
      (snap.excludeUnhealthy && !(reportedHealth reports shard.id).isOkFor protocol) := by
  obtain ⟨health, found⟩ := Option.isSome_iff_exists.mp (tracks.present shard member)
  have reported := tracks.health shard.id
  rw [found, Option.getD_some] at reported
  simp [ClusterSnapshot.isExcluded, found, reported]

theorem Tracks.healthyShards (tracks : Tracks initial reports snap) (excludes : snap.excludeUnhealthy = true)
    (protocol : Protocol) :
    snap.healthyShards protocol = snap.ring.shards.filter fun s => !snap.isExcluded s.id protocol := by
  apply List.filter_congr
  intro shard member
  obtain ⟨health, found⟩ := Option.isSome_iff_exists.mp (tracks.present shard member)
  simp [ClusterSnapshot.isExcluded, found, excludes]

theorem isExcluded_off (off : snap.excludeUnhealthy = false) (id : Nat) (protocol : Protocol) :
    snap.isExcluded id protocol = false := by
  simp [ClusterSnapshot.isExcluded, off]

theorem Tracks.healthyShardIds (tracks : Tracks initial reports snap) (protocol : Protocol) :
    snap.healthyShardIds protocol =
      (snap.ring.shards.filter fun s => !snap.isExcluded s.id protocol).map (·.id) := by
  unfold ClusterSnapshot.healthyShardIds
  cases excludes : snap.excludeUnhealthy with
  | false => simp [isExcluded_off excludes]
  | true => rw [tracks.healthyShards excludes]; rfl

theorem Tracks.healthyCount (tracks : Tracks initial reports snap) (protocol : Protocol) :
    snap.healthyCount protocol = (snap.ring.shards.filter fun s => !snap.isExcluded s.id protocol).length := by
  unfold ClusterSnapshot.healthyCount
  cases excludes : snap.excludeUnhealthy with
  | false => simp [isExcluded_off excludes, ShardRing.shardCount]
  | true => rw [tracks.healthyShards excludes]; rfl

theorem reportedHealth_down {id : Nat} {protocol : Protocol} :
    (reportedHealth reports id).isOkFor protocol = false ↔
      ∃ report, lastReport reports id = some report ∧ report.health.isOkFor protocol = false := by
  unfold reportedHealth
  cases lastReport reports id with
  | none => cases protocol <;> simp [ShardHealth.healthyAll, ShardHealth.isOkFor]
  | some report => simp

/-- What the published snapshot is after these reports on these shards. -/
structure FollowsReports (initial : ClusterSnapshot) (reports : List ReportHealth) (snap : ClusterSnapshot) :
    Prop where
  isExcluded : ∀ shard ∈ initial.ring.shards, ∀ protocol,
    (snap.isExcluded shard.id protocol = true ↔ initial.excludeUnhealthy = true ∧
      ∃ report, lastReport reports shard.id = some report ∧ report.health.isOkFor protocol = false)
  ring : snap.ring = initial.ring
  tableRegistry : snap.tableRegistry = initial.tableRegistry
  excludeUnhealthy : snap.excludeUnhealthy = initial.excludeUnhealthy
  minHealthyShards : snap.minHealthyShards = initial.minHealthyShards
  present : ∀ shard ∈ initial.ring.shards, (snap.health.get shard.id).isSome = true
  healthyShardIds : ∀ protocol, snap.healthyShardIds protocol =
    (initial.ring.shards.filter fun s => !snap.isExcluded s.id protocol).map (·.id)
  healthyCount : ∀ protocol, (snap.healthyShardIds protocol).length = snap.healthyCount protocol

/-- Whatever is reported, in whatever order, the snapshot follows the last reports. -/
theorem run_followsReports (hashring : List VNode → Probe → Option VNode) (shards : List ShardConfig)
    (tableRegistry : TableRegistry) (excludeUnhealthy : Bool) (minHealthyShards : Nat)
    (reports : List ReportHealth) :
    let initial := ClusterSnapshot.new hashring shards tableRegistry excludeUnhealthy minHealthyShards
    FollowsReports initial reports (MetadataActor.run initial reports) := by
  intro initial
  have tracks := (tracks_new hashring shards tableRegistry excludeUnhealthy minHealthyShards).run reports
  refine
    { isExcluded := fun shard member protocol => ?_
      ring := tracks.ring
      tableRegistry := tracks.tableRegistry
      excludeUnhealthy := tracks.excludeUnhealthy
      minHealthyShards := tracks.minHealthyShards
      present := fun shard member => ?_
      healthyShardIds := fun protocol => ?_
      healthyCount := fun protocol => ?_ }
  · rw [← tracks.ring] at member
    rw [tracks.isExcluded member, tracks.excludeUnhealthy, Bool.and_eq_true, Bool.not_eq_true',
      reportedHealth_down]
  · rw [← tracks.ring] at member
    exact tracks.present shard member
  · rw [tracks.healthyShardIds, tracks.ring]
  · rw [tracks.healthyShardIds, tracks.healthyCount, List.length_map]

end QuestRouter.Metadata
