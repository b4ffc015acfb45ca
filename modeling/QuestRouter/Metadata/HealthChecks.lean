import QuestRouter.Data.Machine
import QuestRouter.Data.Mailbox
import QuestRouter.Data.Rounds
import QuestRouter.Metadata.KeyedRouting

/-!
# Health checks

A task probes the configured shards one after the other and reports each to the mailbox of the metadata actor,
waiting where that is full. The actor takes a report out and then publishes a snapshot for it. So the snapshot that
is routed by is never far behind the probes: after a change of the network, so many probes later it is as the network
is.
-/

namespace QuestRouter.Metadata
open Text Data Routing

def mailboxCapacity : Nat := 256

/-- The task and the actor. -/
structure HealthChecks where
  /-- The shards that are left of the round. -/
  rest : List ShardConfig
  /-- The report that waits for room in the mailbox. -/
  reporting : Option ReportHealth := none
  mailbox : Mailbox ReportHealth := {}
  snapshot : ClusterSnapshot
  /-- All probes so far, as they are reported. -/
  probes : List ReportHealth := []

namespace HealthChecks

inductive Event where
  /-- The two ports of the next shard are tried. A connect that times out has failed. -/
  | probe (ilpOk pgOk : Bool)
  /-- `report_health` gets room in the mailbox. -/
  | send
  /-- The actor receives a report, which leaves its room in the mailbox. -/
  | receive
  /-- The actor applies the report that it received. -/
  | apply
  /-- The interval between two rounds has passed. -/
  | wake
  deriving DecidableEq, Repr

def step (shards : List ShardConfig) (s : HealthChecks) : Event → Option HealthChecks
  | .probe ilpOk pgOk =>
    match s.reporting, s.rest with
    | none, shard :: rest =>
      let report : ReportHealth := ⟨shard.id, ilpOk, pgOk⟩
      some { s with rest, reporting := some report, probes := s.probes ++ [report] }
    | _, _ => none
  | .send =>
    match s.reporting with
    | none => none
    | some report => (s.mailbox.trySend mailboxCapacity report).map fun mailbox => { s with reporting := none, mailbox }
  | .receive => s.mailbox.recv.map fun mailbox => { s with mailbox }
  | .apply =>
    s.mailbox.finish.map fun (report, mailbox) =>
      { s with mailbox, snapshot := MetadataActor.applyHealth s.snapshot report }
  | .wake =>
    match s.reporting, s.rest with
    | none, [] => some { s with rest := shards }
    | _, _ => none

def start (shards : List ShardConfig) (snapshot : ClusterSnapshot) : HealthChecks := { rest := shards, snapshot }

/-! ### What is kept -/

/-- Reports are neither lost nor reordered on their way, the mailbox keeps its bound, the snapshot follows the
reports applied, and the probes go in rounds. -/
structure Kept (shards : List ShardConfig) (initial : ClusterSnapshot) (s : HealthChecks) : Prop where
  order : s.probes = s.mailbox.accepted ++ s.reporting.toList
  room : s.mailbox.queue.length ≤ mailboxCapacity
  applied : s.snapshot = MetadataActor.run initial s.mailbox.done
  rounds : InRounds (shards.map (·.id)) (s.probes.map (·.shardId)) (s.rest.map (·.id))

variable {shards : List ShardConfig} {initial : ClusterSnapshot} {s t : HealthChecks} {event : Event}

theorem kept_start (shards : List ShardConfig) (initial : ClusterSnapshot) :
    Kept shards initial (start shards initial) where
  order := rfl
  room := Nat.zero_le _
  applied := rfl
  rounds := inRounds_start _

theorem Kept.step (kept : Kept shards initial s) (happens : step shards s event = some t) :
    Kept shards initial t := by
  cases event with
  | probe ilpOk pgOk =>
    dsimp only [HealthChecks.step] at happens
    split at happens
    · rename_i shard rest idle left
      obtain rfl := Option.some.inj happens
      refine { kept with order := ?_, rounds := ?_ }
      · show s.probes ++ [_] = s.mailbox.accepted ++ [_]
        rw [kept.order, idle, Option.toList_none, List.append_nil]
      · have rounds := kept.rounds
        rw [left] at rounds
        dsimp only
        rw [List.map_append]
        exact rounds.next
    · cases happens
  | send =>
    dsimp only [HealthChecks.step] at happens
    split at happens
    · cases happens
    · rename_i report waiting
      obtain ⟨mailbox, sent, rfl⟩ := Option.map_eq_some_iff.mp happens
      obtain ⟨accepted, done, room⟩ := Mailbox.trySend_accepted sent
      refine { kept with order := ?_, room := room, applied := ?_ }
      · show s.probes = mailbox.accepted ++ []
        rw [accepted, kept.order, waiting, List.append_nil]
        rfl
      · show s.snapshot = MetadataActor.run initial mailbox.done
        rw [done]
        exact kept.applied
  | receive =>
    obtain ⟨mailbox, got, rfl⟩ := Option.map_eq_some_iff.mp happens
    obtain ⟨accepted, done, fewer⟩ := Mailbox.recv_accepted got
    refine { kept with order := ?_, room := ?_, applied := ?_ }
    · show s.probes = mailbox.accepted ++ s.reporting.toList
      rw [accepted]
      exact kept.order
    · have room := kept.room
      show mailbox.queue.length ≤ mailboxCapacity
      omega
    · show s.snapshot = MetadataActor.run initial mailbox.done
      rw [done]
      exact kept.applied
  | apply =>
    obtain ⟨⟨report, mailbox⟩, finished, rfl⟩ := Option.map_eq_some_iff.mp happens
    obtain ⟨accepted, done, queue⟩ := Mailbox.finish_accepted finished
    refine { kept with order := ?_, room := ?_, applied := ?_ }
    · show s.probes = mailbox.accepted ++ s.reporting.toList
      rw [accepted]
      exact kept.order
    · show mailbox.queue.length ≤ mailboxCapacity
      rw [queue]
      exact kept.room
    · show MetadataActor.applyHealth s.snapshot report = MetadataActor.run initial mailbox.done
      rw [done, kept.applied, MetadataActor.run, MetadataActor.run, List.foldl_append]
      rfl
  | wake =>
    dsimp only [HealthChecks.step] at happens
    split at happens
    · rename_i idle left
      obtain rfl := Option.some.inj happens
      have rounds := kept.rounds
      rw [left] at rounds
      exact { kept with rounds := rounds.again }
    · cases happens

theorem Kept.run {events : List Event} (kept : Kept shards initial s)
    (reached : Machine.run (HealthChecks.step shards) s events = some t) : Kept shards initial t :=
  Machine.invariant_run (fun _ _ _ kept happens => kept.step happens) kept reached

/-! ### How far behind the snapshot is -/

/-- The reports that the snapshot does not know of yet: one in hand, those in the mailbox and one that waits. -/
def pending (s : HealthChecks) : List ReportHealth :=
  s.mailbox.hand.toList ++ s.mailbox.queue ++ s.reporting.toList

theorem Kept.probes_eq (kept : Kept shards initial s) : s.probes = s.mailbox.done ++ s.pending := by
  rw [kept.order, Mailbox.accepted, pending, List.append_assoc]

theorem Kept.pending_le (kept : Kept shards initial s) : s.pending.length ≤ mailboxCapacity + 2 := by
  have room := kept.room
  have inHand : s.mailbox.hand.toList.length ≤ 1 := by cases s.mailbox.hand <;> simp
  have waiting : s.reporting.toList.length ≤ 1 := by cases s.reporting <;> simp
  rw [pending, List.length_append, List.length_append]
  omega

/-- In every state the snapshot is what the probes come to in their order, but for the last ones. -/
theorem snapshot_behind {events : List Event}
    (reached : Machine.run (HealthChecks.step shards) (start shards initial) events = some s) :
    ∃ known recent, s.probes = known ++ recent ∧ recent.length ≤ mailboxCapacity + 2 ∧
      s.snapshot = MetadataActor.run initial known := by
  have kept := (kept_start shards initial).run reached
  exact ⟨s.mailbox.done, s.pending, kept.probes_eq, kept.pending_le, kept.applied⟩

/-! ### After a change of the network -/

theorem reportedHealth_append {before later : List ReportHealth} {id : Nat} (probed : id ∈ later.map (·.shardId)) :
    ∃ report ∈ later, report.shardId = id ∧ reportedHealth (before ++ later) id = report.health := by
  have found : (later.reverse.find? (·.shardId == id)).isSome = true := by
    obtain ⟨report, member, same⟩ := List.mem_map.mp probed
    exact List.find?_isSome.mpr ⟨report, List.mem_reverse.mpr member, beq_iff_eq.mpr same⟩
  obtain ⟨report, last⟩ := Option.isSome_iff_exists.mp found
  refine ⟨report, List.mem_reverse.mp (List.mem_of_find?_eq_some last), by simpa using List.find?_some last, ?_⟩
  rw [reportedHealth, lastReport, List.reverse_append, List.find?_append, last]
  rfl

/-- When every shard has been probed behind these, the reports applied say how the network is. -/
theorem Kept.reported {before later : List ReportHealth} {net : Nat → ShardHealth} (kept : Kept shards initial t)
    (probed : t.probes = before ++ later) (steady : ∀ report ∈ later, report.health = net report.shardId)
    (many : mailboxCapacity + 2 + shards.length ≤ later.length) {shard : ShardConfig} (member : shard ∈ shards) :
    reportedHealth t.mailbox.done shard.id = net shard.id := by
  have all := kept.probes_eq
  have few := kept.pending_le
  have total := congrArg List.length (probed.symm.trans all)
  rw [List.length_append, List.length_append] at total
  -- What the actor has applied of the later reports.
  obtain ⟨window, applied⟩ : before <+: t.mailbox.done := by
    have first : before <+: t.probes := ⟨later, probed.symm⟩
    apply List.prefix_of_prefix_length_le first ⟨t.pending, all.symm⟩
    omega
  have split : later = window ++ t.pending := by
    rw [← applied, List.append_assoc] at all
    exact List.append_cancel_left (probed.symm.trans all)
  have rounds := kept.rounds
  rw [probed, split, List.map_append, List.map_append, ← List.append_assoc] at rounds
  have long : (shards.map (·.id)).length ≤ (window.map (·.shardId)).length := by
    have sizes := congrArg List.length split
    rw [List.length_append] at sizes
    rw [List.length_map, List.length_map]
    omega
  obtain ⟨report, inside, same, health⟩ :=
    reportedHealth_append (rounds.window long (List.mem_map_of_mem member))
  rw [← applied, health, ← same]
  apply steady
  rw [split]
  exact List.mem_append_left _ inside

/-- If the network stays as it is while so many probes are made, the shards that routing leaves out are those that
cannot be reached, however slow the actor is. -/
theorem snapshot_follows_network {hashring : List VNode → Probe → Option VNode} {tableRegistry : TableRegistry}
    {excludeUnhealthy : Bool} {minHealthyShards : Nat} {earlier events : List Event} {later : List ReportHealth}
    {net : Nat → ShardHealth}
    (before : Machine.run (HealthChecks.step shards)
      (start shards (.new hashring shards tableRegistry excludeUnhealthy minHealthyShards)) earlier = some s)
    (reached : Machine.run (HealthChecks.step shards) s events = some t) (probed : t.probes = s.probes ++ later)
    (steady : ∀ report ∈ later, report.health = net report.shardId)
    (many : mailboxCapacity + 2 + shards.length ≤ later.length) :
    ∀ shard ∈ shards, ∀ protocol, t.snapshot.isExcluded shard.id protocol =
      (excludeUnhealthy && !(net shard.id).isOkFor protocol) := by
  intro shard member protocol
  have kept := ((kept_start shards _).run before).run reached
  have tracks := (tracks_new hashring shards tableRegistry excludeUnhealthy minHealthyShards).run t.mailbox.done
  rw [← kept.applied] at tracks
  have configured : shard ∈ t.snapshot.ring.shards := by
    rw [tracks.ring]
    exact member
  rw [tracks.isExcluded configured, tracks.excludeUnhealthy, kept.reported probed steady many member]
  rfl

/-- The ILP port of a shard is down, and each report is received and applied at once. -/
def probing (n : Nat) : List Event := (List.replicate n [.probe false true, .send, .receive, .apply, .wake]).flatten

def oneShard : ClusterSnapshot := .new (ringSending []) [shardA] (.fromConfig []) true 1

theorem snapshot_behind_probing : ∃ s, Machine.run (HealthChecks.step [shardA]) (start [shardA] oneShard)
    [.probe false true, .send, .receive] = some s ∧ ∃ known recent, s.probes = known ++ recent ∧
      recent.length ≤ mailboxCapacity + 2 ∧ s.snapshot = MetadataActor.run oneShard known :=
  have reached : Machine.run (HealthChecks.step [shardA]) (start [shardA] oneShard)
      [.probe false true, .send, .receive] = some _ := rfl
  ⟨_, reached, snapshot_behind reached⟩

def ilpDown (_ : Nat) : ShardHealth := ⟨false, true⟩

def downReports (n : Nat) : List ReportHealth := List.replicate n ⟨0, false, true⟩

theorem snapshot_follows_probing :
    ∃ t, Machine.run (HealthChecks.step [shardA]) (start [shardA] oneShard) (probing 259) = some t ∧
      t.snapshot.isExcluded 0 .ilp = true ∧ t.snapshot.isExcluded 0 .pg = false := by
  have probes : (Machine.run (HealthChecks.step [shardA]) (start [shardA] oneShard) (probing 259)).map
      HealthChecks.probes = some (downReports 259) := by decide +kernel
  obtain ⟨t, reached, probed⟩ := Option.map_eq_some_iff.mp probes
  have later : t.probes = (start [shardA] oneShard).probes ++ downReports 259 := probed
  have steady : ∀ report ∈ downReports 259, report.health = ilpDown report.shardId := by
    intro report member
    rw [List.eq_of_mem_replicate member]
    rfl
  have many : mailboxCapacity + 2 + [shardA].length ≤ (downReports 259).length := by
    rw [downReports, List.length_replicate]
    decide
  have nothing : Machine.run (HealthChecks.step [shardA]) (start [shardA] oneShard) [] = some _ := rfl
  have follows := snapshot_follows_network nothing reached later steady many shardA (List.mem_singleton_self _)
  exact ⟨t, reached, follows .ilp, follows .pg⟩

end HealthChecks
end QuestRouter.Metadata
