import QuestRouter.Federated.MergedRows
import QuestRouter.Federated.Provider
import QuestRouter.Federated.Shards
import QuestRouter.Pool.Limit

/-!
# The row limit

A full scan refuses more rows than the limit. A table scan has no such check.
-/

namespace QuestRouter.Federated
open Text Routing Pool

/-- A read of so many rows is refused for their number if they are more than the limit, and only then. -/
structure KeepsLimit (maxRows total : Nat) (accepted refused : Prop) : Prop where
  accepted : accepted → total ≤ maxRows
  refused : refused ↔ maxRows < total

/-- The rows that these shards return. -/
def scannedRows (query : Nat → Except FederatedError (List ClientResponse)) (shardIds : List Nat) : List DataRow :=
  shardIds.flatMap fun id =>
    match query id with
    | .ok responses => ((Arrow.extractQueryRows responses).map Prod.snd).getD []
    | .error _ => []

theorem executeFullScan_keepsLimit {x : FederatedExecutor} {sql : Str} {results : List (Nat × List ClientResponse)}
    (sent : queryAllShards x sql = .ok results)
    (columns : ∀ f ∈ (results.flatMap Prod.snd).filterMap ClientResponse.fields?,
      ∀ g ∈ (results.flatMap Prod.snd).filterMap ClientResponse.fields?, f.length = g.length) :
    KeepsLimit x.maxFederatedRows (responseRows results).length (∃ out, executeFullScan x sql = .ok out)
      (∃ limit, executeFullScan x sql = .error (.rowLimitExceeded limit)) := by
  have executed : executeFullScan x sql = mergeQueryResponses results x.maxFederatedRows := by
    rw [executeFullScan, sent]
    rfl
  rw [executed]
  refine ⟨?_, ?_⟩
  · rintro ⟨out, accepted⟩
    exact (mergeQueryResponses_ok_iff.mp accepted).1.rows
  constructor
  · rintro ⟨limit, refused⟩
    obtain ⟨before, r, after, split, _, violation⟩ := mergeQueryResponses_error_iff.mp refused
    cases violation with
    | rows same exceed =>
      rw [responseRows, split, List.flatMap_append, List.flatMap_cons, List.length_append, List.length_append]
      omega
  · intro exceed
    cases failed : mergeQueryResponses results x.maxFederatedRows with
    | ok out =>
      have fits := (mergeQueryResponses_ok_iff.mp failed).1.rows
      exact (Nat.not_le_of_lt exceed fits).elim
    | error e =>
      obtain ⟨before, r, after, split, _, violation⟩ := mergeQueryResponses_error_iff.mp failed
      cases violation with
      | rows => exact ⟨_, rfl⟩
      | columns first other =>
        refine (other (columns _ ?_ _ ?_)).elim
        · rw [split, List.filterMap_append]
          exact List.mem_append_left _ (findSome?_mem first)
        · rw [split, List.filterMap_append, List.filterMap_cons]
          exact List.mem_append_right _ List.mem_cons_self

/-! ### Table scans -/

section
variable {β γ : Type} (table : QuestDbShardTableProvider)
  (retry : Nat → Str → Except ShardFailure (List ClientResponse))
  (typedBatch : List FieldInfo → List DataRow → Except Str β) (memorySource : List β → Except Str γ)
  (limit : Option Nat)

/-- What the table's shards return for the statement of a scan. -/
def QuestDbShardTableProvider.rows : List DataRow :=
  scannedRows (fun id => Arrow.queryShard id (table.executor.clients id (table.scanSql limit))
    (retry id (table.scanSql limit))) table.pool.shardIds

variable {table retry typedBatch memorySource limit}

/-- It fails with the error of a shard or with one of DataFusion's own. -/
theorem scan_external {e : FederatedError}
    (failed : table.scan retry typedBatch memorySource limit = .error (.external e)) :
    ∃ shardId message, e = .shardQuery shardId message := by
  unfold QuestDbShardTableProvider.scan at failed
  cases fetched : (fetchAllBatches table.pool table.executor retry typedBatch (table.scanSql limit)).2 with
  | error failure =>
    rw [fetched] at failed
    cases failed
    obtain ⟨id, _, shard⟩ := fetchAllBatches_external fetched
    exact ⟨id, Arrow.queryShard_error shard⟩
  | ok batches =>
    rw [fetched] at failed
    change (memorySource batches).mapError DataFusionError.batch = .error (DataFusionError.external e) at failed
    cases planned : memorySource batches <;> rw [planned] at failed <;> cases failed

theorem scan_keepsLimit_iff :
    KeepsLimit table.executor.maxFederatedRows (table.rows retry limit).length
        (∃ plan, table.scan retry typedBatch memorySource limit = .ok plan)
        (∃ n, table.scan retry typedBatch memorySource limit = .error (.external (.rowLimitExceeded n))) ↔
      (table.rows retry limit).length ≤ table.executor.maxFederatedRows := by
  have never : ¬ ∃ n, table.scan retry typedBatch memorySource limit = .error (.external (.rowLimitExceeded n)) := by
    rintro ⟨n, refused⟩
    obtain ⟨shardId, message, impossible⟩ := scan_external refused
    cases impossible
  constructor
  · intro keeps
    by_contra exceed
    exact never (keeps.refused.mpr (Nat.lt_of_not_le exceed))
  · intro fits
    exact ⟨fun _ => fits, ⟨fun refused => (never refused).elim, fun exceed => (Nat.not_le_of_lt exceed fits).elim⟩⟩

/-- Both reads keep the limit exactly if the table scan has no more rows than it allows. -/
theorem federatedReads_keepLimit_iff {sql : Str} {results : List (Nat × List ClientResponse)}
    (sent : queryAllShards table.executor sql = .ok results)
    (columns : ∀ f ∈ (results.flatMap Prod.snd).filterMap ClientResponse.fields?,
      ∀ g ∈ (results.flatMap Prod.snd).filterMap ClientResponse.fields?, f.length = g.length) :
    (KeepsLimit table.executor.maxFederatedRows (responseRows results).length
        (∃ out, executeFullScan table.executor sql = .ok out)
        (∃ n, executeFullScan table.executor sql = .error (.rowLimitExceeded n)) ∧
      KeepsLimit table.executor.maxFederatedRows (table.rows retry limit).length
        (∃ plan, table.scan retry typedBatch memorySource limit = .ok plan)
        (∃ n, table.scan retry typedBatch memorySource limit = .error (.external (.rowLimitExceeded n)))) ↔
      (table.rows retry limit).length ≤ table.executor.maxFederatedRows := by
  rw [scan_keepsLimit_iff]
  exact and_iff_right (executeFullScan_keepsLimit sent columns)

end

def priceField : FieldInfo := ⟨"price".toList, "float8".toList⟩

/-- Two shards that send one row each. -/
def onePriceEach (maxFederatedRows : Nat) : QuestDbShardTableProvider where
  tableName := "trades".toList
  executor := { sending [priceField] (fun _ => [[.number 1]]) with maxFederatedRows }
  pool := .new [shardZero, { shardZero with id := 1 }] 4
  schema := ["price".toList]

/-- No second client is needed. -/
def notRetried (_ : Nat) (_ : Str) : Except ShardFailure (List ClientResponse) := .error (.acquire [])

def allRows (_ : List FieldInfo) (rows : List DataRow) : Except Str (List DataRow) := .ok rows

def allBatches (batches : List (List DataRow)) : Except Str (List (List DataRow)) := .ok batches

def allPrices : Str := "SELECT price FROM trades".toList

theorem federatedReads_keepLimit_two :
    KeepsLimit 2 2 (∃ out, executeFullScan (onePriceEach 2).executor allPrices = .ok out)
        (∃ n, executeFullScan (onePriceEach 2).executor allPrices = .error (.rowLimitExceeded n)) ∧
      KeepsLimit 2 2 (∃ plan, (onePriceEach 2).scan notRetried allRows allBatches none = .ok plan)
        (∃ n, (onePriceEach 2).scan notRetried allRows allBatches none = .error (.external (.rowLimitExceeded n))) := by
  have sent : queryAllShards (onePriceEach 2).executor allPrices =
      .ok [(0, [.query [priceField] [[.number 1]]]), (1, [.query [priceField] [[.number 1]]])] := by
    rw [queryAllShards, show healthyPgShardIds (onePriceEach 2).executor.snapshot = .ok [0, 1] from
      symbolCluster_pgShards]
    rfl
  have fits : ((onePriceEach 2).rows notRetried none).length ≤ 2 := by decide
  exact (federatedReads_keepLimit_iff sent (by decide)).mpr fits

/-- A table scan accepts two rows where one is allowed. -/
theorem scan_over_limit : ¬ KeepsLimit 1 ((onePriceEach 1).rows notRetried (some 10)).length
    (∃ plan, (onePriceEach 1).scan notRetried allRows allBatches (some 10) = .ok plan)
    (∃ n, (onePriceEach 1).scan notRetried allRows allBatches (some 10) = .error (.external (.rowLimitExceeded n))) := by
  intro keeps
  have few := keeps.accepted ⟨[[[.number 1], [.number 1]]], rfl⟩
  exact absurd few (by decide)

end QuestRouter.Federated
