import QuestRouter.Federated.Merge
import QuestRouter.Routing.Router
import QuestRouter.Routing.SingleShard

/-!
# What the shards answer

Each shard answers a statement from its own rows. The rows of all shards together are those of one big table.
-/

namespace QuestRouter.Federated
open Text Sql Routing Metadata

/-- The shards that have the table answer a statement from their rows; on the others it does not exist. -/
structure Serves (m : Meaning) (x : FederatedExecutor) (shardIds : List Nat) (tables : Nat → Tables)
    (has : Nat → Bool) (fields : List FieldInfo) (sql : Str) (q : Query) : Prop where
  healthy : healthyPgShardIds x.snapshot = .ok shardIds
  answers : ∀ id ∈ shardIds, has id = true →
    ∃ out, x.clients id sql = .ok [.query fields out] ∧ m.IsAnswer (tables id) q out
  missing : ∀ id ∈ shardIds, has id = false →
    ∃ message, x.clients id sql = .error (.query message) ∧
      isMissingTableError (shardQueryText id message) = true
  empty : ∀ id ∈ shardIds, has id = false → ∀ select, q.body = .select select →
    m.sourceRows (tables id) select = []

def shardAnswers (has : Nat → Bool) (fields : List FieldInfo) (outs : Nat → List DataRow) (id : Nat) :
    Nat × List ClientResponse :=
  (id, if has id then [.query fields (outs id)] else [])

theorem mapM_ok {ε α β : Type} {f : α → Except ε β} {g : α → β} {xs : List α}
    (each : ∀ a ∈ xs, f a = .ok (g a)) : xs.mapM f = .ok (xs.map g) := by
  induction xs with
  | nil => rfl
  | cons a xs ih =>
    rw [List.mapM_cons, each a List.mem_cons_self, ih fun b member => each b (List.mem_cons_of_mem _ member)]
    rfl

section
variable {m : Meaning} {x : FederatedExecutor} {shardIds : List Nat} {tables : Nat → Tables} {has : Nat → Bool}
  {fields : List FieldInfo} {sql : Str} {q : Query} {select : Select}

theorem Serves.queryAllShards (serves : Serves m x shardIds tables has fields sql q) :
    ∃ outs : Nat → List DataRow, (∀ id ∈ shardIds, has id = true → m.IsAnswer (tables id) q (outs id)) ∧
      queryAllShards x sql = .ok (shardIds.map (shardAnswers has fields outs)) := by
  have each : ∀ id, ∃ out, id ∈ shardIds → queryShard x sql id = .ok (id, if has id then [.query fields out] else []) ∧
      (has id = true → m.IsAnswer (tables id) q out) := by
    intro id
    cases known : has id with
    | true =>
      by_cases member : id ∈ shardIds
      · obtain ⟨out, sent, answer⟩ := serves.answers id member known
        exact ⟨out, fun _ => ⟨by simp [queryShard, sent], fun _ => answer⟩⟩
      · exact ⟨[], fun inside => (member inside).elim⟩
    | false =>
      refine ⟨[], fun member => ⟨?_, nofun⟩⟩
      obtain ⟨message, sent, missing⟩ := serves.missing id member known
      simp [queryShard, sent, missing]
  choose outs answers using each
  refine ⟨outs, fun id member => (answers id member).2, ?_⟩
  rw [Federated.queryAllShards, serves.healthy]
  exact mapM_ok fun id member => (answers id member).1

theorem flatMap_present {α : Type} {ids : List Nat} {f : Nat → List α}
    (missing : ∀ id ∈ ids, has id = false → f id = []) : ids.flatMap f = (ids.filter has).flatMap f := by
  induction ids with
  | nil => rfl
  | cons id ids ih =>
    have rest := ih fun k member => missing k (List.mem_cons_of_mem _ member)
    cases known : has id with
    | true => rw [List.filter_cons_of_pos known, List.flatMap_cons, List.flatMap_cons, rest]
    | false =>
      have absent : ¬ has id = true := by simp [known]
      rw [List.filter_cons_of_neg absent, List.flatMap_cons, missing id List.mem_cons_self known, rest,
        List.nil_append]

theorem responseRows_shardAnswers (outs : Nat → List DataRow) :
    responseRows (shardIds.map (shardAnswers has fields outs)) = (shardIds.filter has).flatMap outs := by
  have sent : ∀ id, (shardAnswers has fields outs id).2.flatMap ClientResponse.rows =
      if has id then outs id else [] := by
    intro id
    unfold shardAnswers
    cases has id <;> simp [ClientResponse.rows]
  have absent : ∀ id ∈ shardIds, has id = false → (if has id then outs id else []) = [] := by
    intro id _ missing
    rw [missing, if_neg Bool.false_ne_true]
  rw [responseRows, List.flatMap_map, List.flatMap_assoc]
  simp only [sent]
  rw [flatMap_present absent]
  exact List.flatMap_congr fun id member => if_pos (List.mem_filter.mp member).2

/-- On the rows of a shard, and outside all rows, each nested query answers the same there as over all rows. -/
def SameOnShards (m : Meaning) (q : Query) (select : Select) (shardIds : List Nat) (tables : Nat → Tables) : Prop :=
  ∀ id ∈ shardIds, m.SameOn (querySubqueries q) (nullRecord :: m.sourceRows (tables id) select) (tables id)
    (unionTables shardIds tables)

section
variable {name : ObjectName} (source : select.source = [⟨.table name, []⟩]) (alone : select.sourceClauses = [])
  (body : q.body = .select select) (same : SameOnShards m q select shardIds tables)

include source alone in
theorem sourceRows_union : m.sourceRows (unionTables shardIds tables) select =
    shardIds.flatMap fun id => m.sourceRows (tables id) select := by
  simp only [sourceRows_table m source alone]
  rfl

include body same in
theorem SameOnShards.filtered {id : Nat} (member : id ∈ shardIds) :
    m.SameOn (subqueries q select) (nullRecord :: m.filtered (tables id) select) (tables id)
      (unionTables shardIds tables) := by
  have here := same id member
  rw [querySubqueries_select body] at here
  exact here.mono (List.Subset.refl _) (List.cons_subset_cons _ (List.filter_subset_self _))

include body same in
/-- Each shard keeps as many rows of one as all rows together give. -/
theorem SameOnShards.sliced {id : Nat} (member : id ∈ shardIds) :
    m.sliced (tables id) q select = m.sliced (unionTables shardIds tables) q select :=
  (Meaning.sliced_same (same.filtered body member)).symm

include source alone body same

theorem filtered_shards : m.filtered (unionTables shardIds tables) select =
    shardIds.flatMap fun id => m.filtered (tables id) select := by
  rw [Meaning.filtered, sourceRows_union source alone, List.filter_flatMap]
  refine List.flatMap_congr fun id member => List.filter_congr fun row inside => ?_
  have here := same id member
  rw [querySubqueries_select body] at here
  exact Meaning.passes_same here (Meaning.within_row (List.mem_cons_of_mem _ inside)) rfl Meaning.selection_members

end

theorem Serves.filtered_missing (serves : Serves m x shardIds tables has fields sql q)
    (body : q.body = .select select) : ∀ id ∈ shardIds, has id = false → m.filtered (tables id) select = [] := by
  intro id member known
  rw [Meaning.filtered, serves.empty id member known select body, List.filter_nil]

end

/-! ### Trades on two shards -/

/-- Two shards that each send these rows. -/
def sending (fields : List FieldInfo) (rows : Nat → List DataRow) : FederatedExecutor where
  snapshot := symbolCluster
  maxFederatedRows := 1000
  clients id _ := .ok [.query fields (rows id)]
  parser := noParser
  exprText _ := []
  parseF64 _ := none

theorem symbolCluster_pgShards : healthyPgShardIds symbolCluster = .ok [0, 1] := by decide +kernel

theorem sending_serves {m : Meaning} {query : Query} {select : Select} (noWith : query.withClause = false)
    (body : query.body = .select select) (plain : isPlain query select = true)
    (unordered : Meaning.Unordered query select) (all : select.distinct = none) (fields : List FieldInfo) (sql : Str)
    (tables : Nat → Tables) :
    Serves m (sending fields fun id => (m.results (tables id) query select).map OutputRow.cells) [0, 1] tables
      (fun _ => true) fields sql query where
  healthy := symbolCluster_pgShards
  answers _ _ _ := ⟨_, rfl, (Meaning.isAnswer_rows noWith body plain unordered all).mpr (.refl _)⟩
  missing _ _ := nofun
  empty _ _ := nofun

/-- `SELECT` this item `FROM trades`. -/
def tradesSelect (item : SelectItem) : Select where
  projection := [item]
  source := tradesFrom
  groupBy := .expressions []

def selectTrades (item : SelectItem) : Query where
  body := .select (tradesSelect item)

def tradesExecutor (tables : Nat → Tables) (item : SelectItem) : FederatedExecutor :=
  sending [] fun id =>
    (Meaning.plain.results (tables id) (selectTrades item) (tradesSelect item)).map OutputRow.cells

theorem selectTrades_unordered (item : SelectItem) : Meaning.Unordered (selectTrades item) (tradesSelect item) :=
  ⟨rfl, rfl, rfl, rfl⟩

theorem tradesExecutor_serves (tables : Nat → Tables) (item : SelectItem) (sql : Str) :
    Serves Meaning.plain (tradesExecutor tables item) [0, 1] tables (fun _ => true) [] sql (selectTrades item) :=
  sending_serves rfl rfl rfl (selectTrades_unordered item) rfl [] sql tables

theorem selectTrades_isAnswer {item : SelectItem} {tables : Tables} {out : List DataRow} :
    Meaning.plain.IsAnswer tables (selectTrades item) out ↔
      out.Perm ((Meaning.plain.results tables (selectTrades item) (tradesSelect item)).map OutputRow.cells) :=
  Meaning.isAnswer_rows rfl rfl rfl (selectTrades_unordered item) rfl

/-- A statement of one item without nested queries. -/
theorem selectTrades_same (m : Meaning) {item : SelectItem} (none : subqueries (selectTrades item) (tradesSelect item) = [])
    (shardIds : List Nat) (tables : Nat → Tables) :
    SameOnShards m (selectTrades item) (tradesSelect item) shardIds tables := by
  intro id _ q member
  rw [querySubqueries_select rfl, none] at member
  cases member

end QuestRouter.Federated
