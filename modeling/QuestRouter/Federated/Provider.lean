import QuestRouter.Federated.Arrow
import QuestRouter.Metadata.Actor
import QuestRouter.Pool.Pg
import QuestRouter.Text.Replace

/-!
# Table scans

A table scan asks the shards one after the other, in the order of the pool, and stops at the first that
fails. The pool knows the configured shards and nothing of their health.
-/

namespace QuestRouter.Federated
open Text Metadata Routing Pool

inductive DataFusionError where
  | external (e : FederatedError)
  | batch (message : Str)

/-- The fields are of the first shard that has a result. -/
def appendShard (progress : Option (List FieldInfo) × List DataRow) (responses : List ClientResponse) :
    Option (List FieldInfo) × List DataRow :=
  match Arrow.extractQueryRows responses with
  | some (fields, rows) => (progress.1.or (some fields), progress.2 ++ rows)
  | none => progress

/-- The loop over the shards: those that were asked, and the rows or the first failure. -/
def fetchRows (query : Nat → Except FederatedError (List ClientResponse)) :
    List Nat → Option (List FieldInfo) × List DataRow →
      List Nat × Except FederatedError (Option (List FieldInfo) × List DataRow)
  | [], progress => ([], .ok progress)
  | shardId :: shardIds, progress =>
    match query shardId with
    | .error e => ([shardId], .error e)
    | .ok responses =>
      let (queried, result) := fetchRows query shardIds (appendShard progress responses)
      (shardId :: queried, result)

/-- `retry` is what the second client of a shard gives, `typedBatch` the batch of wire rows. -/
def fetchAllBatches {β : Type} (pool : ShardPgPool) (x : FederatedExecutor)
    (retry : Nat → Str → Except ShardFailure (List ClientResponse))
    (typedBatch : List FieldInfo → List DataRow → Except Str β) (sql : Str) :
    List Nat × Except DataFusionError (List β) :=
  let (queried, result) :=
    fetchRows (fun id => Arrow.queryShard id (x.clients id sql) (retry id sql)) pool.shardIds (none, [])
  (queried, match result with
    | .error e => .error (.external e)
    | .ok (none, _) => .ok []
    | .ok (some fields, rows) => ((typedBatch fields rows).mapError .batch).map fun batch => [batch])

/-- The table as DataFusion sees it: its name, the names of its columns, and the executor with its pool. -/
structure QuestDbShardTableProvider where
  tableName : Str
  executor : FederatedExecutor
  pool : ShardPgPool
  schema : List Str

namespace QuestDbShardTableProvider

def scanSql (table : QuestDbShardTableProvider) (limit : Option Nat) : Str :=
  let cols := ", ".toList.intercalate
    (table.schema.map fun name => "\"".toList ++ replace name "\"".toList "\"\"".toList ++ "\"".toList)
  let sql := "SELECT ".toList ++ cols ++ " FROM ".toList ++ table.tableName
  match limit with
  | some n => sql ++ " LIMIT ".toList ++ decimal n
  | none => sql

/-- `memorySource` is the plan over the batches that were read. -/
def scan {β γ : Type} (table : QuestDbShardTableProvider)
    (retry : Nat → Str → Except ShardFailure (List ClientResponse))
    (typedBatch : List FieldInfo → List DataRow → Except Str β) (memorySource : List β → Except Str γ)
    (limit : Option Nat) : Except DataFusionError γ := do
  let batches ← (fetchAllBatches table.pool table.executor retry typedBatch (table.scanSql limit)).2
  (memorySource batches).mapError .batch

end QuestDbShardTableProvider

/-! ### The shards of a scan -/

section
variable {query : Nat → Except FederatedError (List ClientResponse)} {shardIds : List Nat}
  {progress : Option (List FieldInfo) × List DataRow}

theorem fetchRows_queried {id : Nat} (h : id ∈ (fetchRows query shardIds progress).1) : id ∈ shardIds := by
  induction shardIds generalizing progress with
  | nil => cases h
  | cons shardId shardIds ih =>
    unfold fetchRows at h
    split at h
    · rw [List.mem_singleton.mp h]
      exact List.mem_cons_self
    · rcases List.mem_cons.mp h with rfl | later
      · exact List.mem_cons_self
      · exact List.mem_cons_of_mem _ (ih later)

theorem fetchRows_all {all : Option (List FieldInfo) × List DataRow}
    (h : (fetchRows query shardIds progress).2 = .ok all) : (fetchRows query shardIds progress).1 = shardIds := by
  induction shardIds generalizing progress with
  | nil => rfl
  | cons shardId shardIds ih =>
    unfold fetchRows at h ⊢
    split at h
    · cases h
    · dsimp only at h ⊢
      rw [ih h]

theorem fetchRows_error {e : FederatedError} (h : (fetchRows query shardIds progress).2 = .error e) :
    ∃ id ∈ shardIds, query id = .error e := by
  induction shardIds generalizing progress with
  | nil => cases h
  | cons shardId shardIds ih =>
    unfold fetchRows at h
    split at h
    · rename_i failed
      cases h
      exact ⟨shardId, List.mem_cons_self, failed⟩
    · obtain ⟨id, member, failed⟩ := ih h
      exact ⟨id, List.mem_cons_of_mem _ member, failed⟩

end

theorem shardIds_new {shards : List ShardConfig} {maxPerShard id : Nat} :
    id ∈ (ShardPgPool.new shards maxPerShard).shardIds ↔ ∃ shard ∈ shards, shard.id = id := by
  have keys : id ∈ (ShardPgPool.new shards maxPerShard).shards.keys ↔
      id ∈ (shards.map fun s => (s.id, s)).map Prod.fst := HashMap.mem_collect _ id
  rw [ShardPgPool.shardIds, (List.perm_insertionSort _ _).mem_iff, keys, List.map_map, List.mem_map]
  rfl

theorem mapM_error {ε α β : Type} {f : α → Except ε β} {xs : List α} {e : ε} (h : xs.mapM f = .error e) :
    ∃ a ∈ xs, f a = .error e := by
  induction xs with
  | nil => cases h
  | cons a xs ih =>
    rw [List.mapM_cons] at h
    cases first : f a with
    | error failed =>
      rw [first] at h
      cases h
      exact ⟨a, List.mem_cons_self, first⟩
    | ok b =>
      cases rest : xs.mapM f with
      | error failed =>
        rw [first, rest] at h
        cases h
        obtain ⟨c, member, failed⟩ := ih rest
        exact ⟨c, List.mem_cons_of_mem _ member, failed⟩
      | ok bs =>
        rw [first, rest] at h
        cases h

theorem queryAllShards_routing {x : FederatedExecutor} {sql : Str} {e : RoutingError} :
    queryAllShards x sql = .error (.routing e) ↔ healthyPgShardIds x.snapshot = .error e := by
  unfold queryAllShards
  split
  · rename_i failed
    simp [failed]
  · rename_i shardIds healthy
    rw [healthy]
    refine ⟨fun h => ?_, nofun⟩
    obtain ⟨id, _, failed⟩ := mapM_error h
    unfold queryShard at failed
    split at failed
    · cases failed
    · cases failed
    · split at failed <;> cases failed

/-! ### Scan and fan-out -/

/-- Whatever the shards answer, a table scan asks the shards that are healthy, and fails for want of healthy
shards exactly when the fan-out does. -/
def ScansHealthyShards (pool : ShardPgPool) (snap : ClusterSnapshot) : Prop :=
  ∀ (x : FederatedExecutor) (retry : Nat → Str → Except ShardFailure (List ClientResponse)) (β : Type)
    (typedBatch : List FieldInfo → List DataRow → Except Str β) (sql : Str), x.snapshot = snap →
    let scan := fetchAllBatches pool x retry typedBatch sql
    (∀ id ∈ scan.1, id ∈ snap.healthyShardIds .pg) ∧
      ((∀ e, scan.2 ≠ .error (.external e)) → ∀ id ∈ snap.healthyShardIds .pg, id ∈ scan.1) ∧
      ((∃ e, scan.2 = .error (.external (.routing e))) ↔ ∃ e, queryAllShards x sql = .error (.routing e))

section
variable {β : Type} {pool : ShardPgPool} {x : FederatedExecutor}
  {retry : Nat → Str → Except ShardFailure (List ClientResponse)}
  {typedBatch : List FieldInfo → List DataRow → Except Str β} {sql : Str}

theorem fetchAllBatches_queried {id : Nat} (h : id ∈ (fetchAllBatches pool x retry typedBatch sql).1) :
    id ∈ pool.shardIds := fetchRows_queried h

theorem fetchAllBatches_all (h : ∀ e, (fetchAllBatches pool x retry typedBatch sql).2 ≠ .error (.external e)) :
    (fetchAllBatches pool x retry typedBatch sql).1 = pool.shardIds := by
  cases fetched : (fetchRows (fun id => Arrow.queryShard id (x.clients id sql) (retry id sql)) pool.shardIds
      (none, [])).2 with
  | error e =>
    refine (h e ?_).elim
    unfold fetchAllBatches
    dsimp only
    rw [fetched]
  | ok all => exact fetchRows_all fetched

theorem fetchAllBatches_external {e : FederatedError}
    (h : (fetchAllBatches pool x retry typedBatch sql).2 = .error (.external e)) :
    ∃ id ∈ pool.shardIds, Arrow.queryShard id (x.clients id sql) (retry id sql) = .error e := by
  cases fetched : (fetchRows (fun id => Arrow.queryShard id (x.clients id sql) (retry id sql)) pool.shardIds
      (none, [])).2 with
  | error failed =>
    unfold fetchAllBatches at h
    dsimp only at h
    rw [fetched] at h
    cases h
    exact fetchRows_error fetched
  | ok all =>
    unfold fetchAllBatches at h
    dsimp only at h
    rw [fetched] at h
    obtain ⟨fields, rows⟩ := all
    cases fields with
    | none => cases h
    | some fields => cases built : typedBatch fields rows <;> simp [built, Except.mapError, Except.map] at h

end

end QuestRouter.Federated
