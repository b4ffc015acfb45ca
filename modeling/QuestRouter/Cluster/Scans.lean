import QuestRouter.Cluster.Writes
import QuestRouter.Data.Limited
import QuestRouter.Federated.FreshAnswer
import QuestRouter.Federated.RowLimit
import QuestRouter.Federated.ScanText

/-!
# Table scans of what was written

Everything that is not sent to one shard is left to DataFusion, which reads tables by scans. A scan asks each
shard of the pool for the columns of the table, and its batch has the rows that were written, each of them once.
-/

namespace QuestRouter.Cluster
open Text Sql Data Metadata Federated Protocol

def cells (columns : List Str) (row : Record) : DataRow := columns.map row.column

/-- What a shard with these rows may answer a `SELECT` of columns. It has no table until a row is written. -/
inductive Selected (columns : List Str) (limit : Option Nat) (rows : List Record) (id : Nat) :
    Except ShardFailure (List ClientResponse) → Prop
  | rows (fields : List FieldInfo) (out : List DataRow) (selected : Limited limit (rows.map (cells columns)) out) :
      Selected columns limit rows id (.ok [.query fields out])
  | missing (message : Str) (empty : rows = []) (missing : Missing id message) :
      Selected columns limit rows id (.error (.query message))

/-- The shards of the pool answer each text that is a `SELECT` of the table's columns from the rows they have. -/
def AnswersSelects (table : QuestDbShardTableProvider) (limit : Option Nat) (rows : Nat → List Record) : Prop :=
  ∀ id ∈ table.pool.shardIds, ∀ text,
    tokens text = some (selectTokens table.schema table.tableName limit) →
      Selected table.schema limit (rows id) id (table.executor.clients id text)

/-! ### One shard -/

/-- A missing table is a result without rows. -/
theorem Selected.queryShard {columns : List Str} {limit : Option Nat} {rows : List Record} {id : Nat}
    {first second : Except ShardFailure (List ClientResponse)} (selected : Selected columns limit rows id first) :
    ∃ responses, Arrow.queryShard id first second = .ok responses ∧
      Limited limit (rows.map (cells columns)) (((Arrow.extractQueryRows responses).map Prod.snd).getD []) := by
  cases selected with
  | rows fields out selected => exact ⟨_, rfl, selected⟩
  | missing message empty missing =>
    refine ⟨[], ?_, ?_⟩
    · have gone : isMissingTableError (shardQueryText id message) = true := missing
      simp [Arrow.queryShard, Arrow.afterFirst, gone]
    · subst empty
      exact ⟨[], .refl _, fun _ => rfl, fun n _ => by simp [Arrow.extractQueryRows]⟩

/-! ### All shards -/

/-- If no shard fails, the loop ends with the rows of all shards, and without fields only if there are no rows. -/
theorem fetchRows_ok {query : Nat → Except FederatedError (List ClientResponse)} {shardIds : List Nat}
    (each : ∀ id ∈ shardIds, ∃ responses, query id = .ok responses)
    (progress : Option (List FieldInfo) × List DataRow) :
    ∃ fields, (fetchRows query shardIds progress).2 = .ok (fields, progress.2 ++ scannedRows query shardIds) ∧
      (fields = none → progress.1 = none ∧ scannedRows query shardIds = []) := by
  induction shardIds generalizing progress with
  | nil => exact ⟨progress.1, by simp [fetchRows, scannedRows], fun none => ⟨none, rfl⟩⟩
  | cons id shardIds ih =>
    obtain ⟨⟨responses, answered⟩, later⟩ := List.forall_mem_cons.mp each
    obtain ⟨fields, fetched, none⟩ := ih later (appendShard progress responses)
    have first : scannedRows query (id :: shardIds) =
        ((Arrow.extractQueryRows responses).map Prod.snd).getD [] ++ scannedRows query shardIds := by
      rw [scannedRows, List.flatMap_cons, answered]
      rfl
    have next : (fetchRows query (id :: shardIds) progress).2 =
        (fetchRows query shardIds (appendShard progress responses)).2 := by
      rw [fetchRows, answered]
    refine ⟨fields, ?_, fun nothing => ?_⟩
    · rw [next, fetched, first, ← List.append_assoc]
      unfold appendShard
      cases Arrow.extractQueryRows responses with
      | none => simp
      | some result => rfl
    · obtain ⟨before, rest⟩ := none nothing
      unfold appendShard at before
      cases extracted : Arrow.extractQueryRows responses with
      | none =>
        rw [extracted] at before
        exact ⟨before, by rw [first, extracted, rest]; rfl⟩
      | some result =>
        rw [extracted] at before
        cases known : progress.1 <;> rw [known] at before <;> cases before

/-- The plan over the batch of these rows, or over none. -/
def planned {β γ : Type} (typedBatch : List FieldInfo → List DataRow → Except Str β)
    (memorySource : List β → Except Str γ) (fields : Option (List FieldInfo)) (rows : List DataRow) : Except Str γ :=
  match fields with
  | none => memorySource []
  | some fields => typedBatch fields rows >>= fun batch => memorySource [batch]

theorem scan_fetched {β γ : Type} {table : QuestDbShardTableProvider}
    {retry : Nat → Str → Except ShardFailure (List ClientResponse)}
    {typedBatch : List FieldInfo → List DataRow → Except Str β} {memorySource : List β → Except Str γ}
    {limit : Option Nat} {fields : Option (List FieldInfo)} {rows : List DataRow}
    (fetched : (fetchRows (fun id => Arrow.queryShard id (table.executor.clients id (table.scanSql limit))
      (retry id (table.scanSql limit))) table.pool.shardIds (none, [])).2 = .ok (fields, rows)) :
    table.scan retry typedBatch memorySource limit = (planned typedBatch memorySource fields rows).mapError .batch := by
  unfold QuestDbShardTableProvider.scan fetchAllBatches planned
  dsimp only
  rw [fetched]
  cases fields with
  | none => rfl
  | some fields => cases typed : typedBatch fields rows <;> simp [typed, bind, Except.bind, Except.mapError, Except.map]

theorem rows_limited {table : QuestDbShardTableProvider} {limit : Option Nat} {rows : Nat → List Record}
    (word : IsWord table.tableName) (answers : AnswersSelects table limit rows)
    (retry : Nat → Str → Except ShardFailure (List ClientResponse)) :
    Limited limit ((table.pool.shardIds.flatMap rows).map (cells table.schema)) (cut limit (table.rows retry limit)) := by
  rw [List.map_flatMap, QuestDbShardTableProvider.rows, scannedRows]
  apply limited_flatMap
  intro id member
  have selected := answers id member _ (tokens_scanSql word limit)
  obtain ⟨responses, answered, limited⟩ : ∃ responses,
      Arrow.queryShard id _ (retry id (table.scanSql limit)) = .ok responses ∧ _ := selected.queryShard
  rw [answered]
  exact limited

theorem shardIds_nodup (pool : Pool.ShardPgPool) : pool.shardIds.Nodup := by
  rw [Pool.ShardPgPool.shardIds, (List.perm_insertionSort _ _).nodup_iff]
  exact AList.keys_nodup pool.shards

/-- If the shards answer a `SELECT` from what the clients sent them, a table scan never fails for a shard. Cut to
the limit that it was given, what it has is an answer over all rows that were written, each of them once. -/
theorem tableScan_written {reader : LineReader} {conns : List Connection} {table : QuestDbShardTableProvider}
    {limit : Option Nat} (each : ∀ c ∈ conns, c.Forwarded ∧ Covers table.pool.shardIds c.out)
    (word : IsWord table.tableName)
    (answers : AnswersSelects table limit fun id => shardRows reader conns id [.identifier table.tableName])
    (retry : Nat → Str → Except ShardFailure (List ClientResponse)) :
    Limited limit ((writtenRows reader conns [.identifier table.tableName]).map (cells table.schema))
        (cut limit (table.rows retry limit)) ∧
      ∃ fields, (fields = none → table.rows retry limit = []) ∧
        ∀ (β γ : Type) (typedBatch : List FieldInfo → List DataRow → Except Str β)
          (memorySource : List β → Except Str γ),
          table.scan retry typedBatch memorySource limit =
            (planned typedBatch memorySource fields (table.rows retry limit)).mapError .batch := by
  have shards : (table.pool.shardIds.flatMap fun id => shardRows reader conns id [.identifier table.tableName]).Perm
      (writtenRows reader conns [.identifier table.tableName]) :=
    unionTables_shardRows (shardIds_nodup table.pool) each _
  have asked : ∀ id ∈ table.pool.shardIds, ∃ responses,
      Arrow.queryShard id (table.executor.clients id (table.scanSql limit)) (retry id (table.scanSql limit)) =
        .ok responses := by
    intro id member
    obtain ⟨responses, answered, _⟩ := (answers id member _ (tokens_scanSql word limit)).queryShard
    exact ⟨responses, answered⟩
  obtain ⟨fields, fetched, none⟩ := fetchRows_ok asked (none, [])
  refine ⟨(rows_limited word answers retry).perm (shards.map _), fields, fun nothing => (none nothing).2, ?_⟩
  intro β γ typedBatch memorySource
  exact scan_fetched fetched

/-- The two shards of the cluster, each of which answers with its rows, two at most. -/
def tradesTable : QuestDbShardTableProvider where
  tableName := "trades".toList
  schema := ["symbol".toList, "price".toList]
  pool := .new [shardA, shardB] 4
  executor :=
    { sending [] fun id => ((shardRows readTrades [writesB, writesBoth] id [.identifier "trades".toList]).map
        (cells ["symbol".toList, "price".toList])).take 2 with
      snapshot := tradesCluster }

theorem tradesTable_scan :
    Limited (some 2)
      ((writtenRows readTrades [writesB, writesBoth] [.identifier "trades".toList]).map (cells tradesTable.schema))
      (cut (some 2) (tradesTable.rows notRetried (some 2))) := by
  have letters : "rades".toList.all isIdentPart = true := by decide
  have word : IsWord tradesTable.tableName :=
    ⟨'t', "rades".toList, by decide, by decide, List.all_eq_true.mp letters⟩
  have answers : AnswersSelects tradesTable (some 2) fun id =>
      shardRows readTrades [writesB, writesBoth] id [.identifier tradesTable.tableName] := by
    intro id _ text _
    apply Selected.rows
    exact limited_take (List.Perm.of_eq (List.append_nil _)) (Nat.min_le_right _ _)
  exact (tableScan_written (writes_covered (by decide)) word answers notRetried).1

example : cut (some 2) (tradesTable.rows notRetried (some 2)) =
    [[.text "B".toList, .number 3], [.text "A".toList, .number 1]] := by decide +kernel

end QuestRouter.Cluster
