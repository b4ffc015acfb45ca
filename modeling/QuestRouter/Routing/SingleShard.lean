import Mathlib.Data.List.Dedup
import QuestRouter.Metadata.Snapshot
import QuestRouter.Routing.KeyExtraction
import QuestRouter.Sql.Answer

/-!
# Single-shard answers

A condition with a conjunct that compares the key column with a text leaves only rows of one shard. So that
shard answers as all shards would together, as long as the queries nested in the statement do on the rows with
this key: they are sent along and read the rows of that shard alone.
-/

namespace QuestRouter.Routing
open Text Sql Metadata

/-- Each row is on the shard that its key is written to, by the key column of its table. -/
def Placed (snap : ClusterSnapshot) (default : Str) (tables : Nat → Tables) : Prop :=
  ∀ id name, ∀ row ∈ tables id name, ∀ k,
    row.column (snap.tableRegistry.shardKeyFor (objectName name) default) = .text k →
      ∃ shard, snap.shardForKey k .ilp = .ok shard ∧ shard.id = id

def shardIds (snap : ClusterSnapshot) : List Nat := (snap.ring.shards.map (·.id)).dedup

def IsStringLiteral (e : Expr) (k : Str) : Prop :=
  ∃ v, e = .value v ∧ (v = .singleQuotedString k ∨ v = .doubleQuotedString k ∨ v = .escapedStringLiteral k)

def querySubqueries (q : Query) : List Query :=
  match q.body with
  | .select select => subqueries q select
  | .other => []

/-- Each nested query answers the same on the rows with this key, and outside all rows. -/
def SameForKey (m : Meaning) (query : Query) (column k : Str) (tables tables' : Tables) : Prop :=
  ∀ q ∈ querySubqueries query, ∀ row, row = nullRecord ∨ row.column column = .text k →
    m.nested q tables' row = m.nested q tables row

theorem querySubqueries_select {query : Query} {select : Select} (body : query.body = .select select) :
    querySubqueries query = subqueries query select := by
  rw [querySubqueries, body]

theorem eval_stringLiteral (m : Meaning) {e : Expr} {k : Str} (literal : IsStringLiteral e k) (s : Scope) :
    m.eval e s = .text k := by
  obtain ⟨v, rfl, rfl | rfl | rfl⟩ := literal <;> rfl

theorem flatMap_only {α : Type} {ids : List Nat} {f : Nat → List α} {id : Nat} (nodup : ids.Nodup)
    (member : id ∈ ids) (others : ∀ k ∈ ids, k ≠ id → f k = []) : ids.flatMap f = f id := by
  induction ids with
  | nil => cases member
  | cons first ids ih =>
    obtain ⟨fresh, nodup⟩ := List.nodup_cons.mp nodup
    rw [List.flatMap_cons]
    rcases List.mem_cons.mp member with rfl | later
    · have rest : ids.flatMap f = [] :=
        List.flatMap_eq_nil_iff.mpr fun k inside =>
          others k (List.mem_cons_of_mem _ inside) fun eq => fresh (eq ▸ inside)
      rw [rest, List.append_nil]
    · have none := others first List.mem_cons_self fun eq => fresh (eq ▸ later)
      rw [none, List.nil_append]
      exact ih nodup later fun k inside => others k (List.mem_cons_of_mem _ inside)

theorem shardForKey_mem {snap : ClusterSnapshot} {key : Str} {protocol : Protocol} {shard : ShardConfig}
    (h : snap.shardForKey key protocol = .ok shard) : shard.id ∈ shardIds snap := by
  have found := (ShardRing.shardByKeyFiltered_spec (ClusterSnapshot.shardForKey_ok.mp h).2).1
  exact List.mem_dedup.mpr (List.mem_map_of_mem found)

section
variable {m : Meaning} {column k : Str} {e operand : Expr} (compared : keyOperand e column = some operand)
  (literal : IsStringLiteral operand k)

include compared literal

theorem key_of_passes {s : Scope} (passes : m.passes (some e) s = true) : s.row.column column = .text k := by
  have equal := (holds_keyOperand (m.env s) compared (m.passes_some.mp passes)).1
  rw [m.env_eval, eval_stringLiteral m literal] at equal
  exact equal

theorem key_of_filtered {tables : Tables} {select : Select} (condition : select.selection = some e) {row : Record}
    (member : row ∈ m.filtered tables select) : row.column column = .text k := by
  have passes := (List.mem_filter.mp member).2
  rw [condition] at passes
  exact key_of_passes compared literal passes

theorem SameForKey.passes {query : Query} {select : Select} {tables tables' : Tables}
    (same : SameForKey m query column k tables tables') (body : query.body = .select select)
    (condition : select.selection = some e) (row : Record) :
    m.passes (some e) ⟨tables', [], [], row⟩ = m.passes (some e) ⟨tables, [], [], row⟩ := by
  by_cases keyed : row.column column = .text k
  · have here : m.SameOn (subqueries query select) [row] tables tables' := by
      intro q member r inside
      rw [← querySubqueries_select body] at member
      exact same q member r (.inr (List.mem_singleton.mp inside ▸ keyed))
    exact Meaning.passes_same here (Meaning.within_row (List.mem_singleton_self row)) rfl
      fun e' found => Meaning.selection_members e' (condition.trans found)
  · have fails : ∀ T : Tables, m.passes (some e) ⟨T, [], [], row⟩ = false := by
      intro T
      rw [Bool.eq_false_iff]
      exact fun passes => keyed (key_of_passes compared literal passes)
    rw [fails, fails]

/-- A statement has the same answers from tables where the condition leaves it the same rows. -/
theorem SameForKey.isAnswer {query : Query} {select : Select} {tables tables' : Tables}
    (same : SameForKey m query column k tables tables') (noWith : query.withClause = false)
    (body : query.body = .select select) (condition : select.selection = some e)
    (rows : m.filtered tables' select = m.filtered tables select) {out : Answer} :
    m.IsAnswer tables' query out ↔ m.IsAnswer tables query out := by
  refine Meaning.isAnswer_same ?_ noWith body rows
  intro q member row inside
  rw [← querySubqueries_select body] at member
  refine same q member row ?_
  rcases List.mem_cons.mp inside with rfl | kept
  · exact .inl rfl
  · exact .inr (key_of_filtered compared literal condition kept)

end

theorem sourceRows_table (m : Meaning) {select : Select} {name : ObjectName}
    (source : select.source = [⟨.table name, []⟩]) (alone : select.sourceClauses = []) (tables : Tables) :
    m.sourceRows tables select = tables name := by
  rw [Meaning.sourceRows, source, alone]

section
variable {m : Meaning} {snap : ClusterSnapshot} {column k : Str} {tables : Nat → Tables} {shard : ShardConfig}
  {name : ObjectName} {e operand : Expr} (healthy : snap.AllHealthy) (placed : Placed snap column tables)
  (own : eqIgnoreAsciiCase (snap.tableRegistry.shardKeyFor (objectName name) column) column = true)
  (found : snap.shardForKey k .pg = .ok shard) (compared : keyOperand e column = some operand)
  (literal : IsStringLiteral operand k)

include healthy placed own found compared literal

theorem row_on_shard {id : Nat} {row : Record} (member : row ∈ tables id name) {T : Tables}
    (passes : m.passes (some e) ⟨T, [], [], row⟩ = true) : id = shard.id := by
  have key : row.column column = .text k := key_of_passes compared literal passes
  rw [← row.column_congr own] at key
  obtain ⟨target, written, rfl⟩ := placed id name row member k key
  rw [ClusterSnapshot.shardForKey_unique healthy written found]

theorem filtered_union {query : Query} {select : Select} (body : query.body = .select select)
    (source : select.source = [⟨.table name, []⟩]) (alone : select.sourceClauses = [])
    (condition : select.selection = some e)
    (same : SameForKey m query column k (tables shard.id) (unionTables (shardIds snap) tables)) :
    m.filtered (unionTables (shardIds snap) tables) select = m.filtered (tables shard.id) select := by
  have whole : unionTables (shardIds snap) tables name = (shardIds snap).flatMap fun id => tables id name := rfl
  have nodup : (shardIds snap).Nodup := List.nodup_dedup _
  rw [Meaning.filtered, Meaning.filtered, sourceRows_table m source alone, sourceRows_table m source alone, condition,
    whole, List.filter_flatMap, flatMap_only nodup (shardForKey_mem found)]
  · exact List.filter_congr fun row _ => same.passes compared literal body condition row
  · intro id _ other
    refine List.filter_eq_nil_iff.mpr fun row member passes => other ?_
    exact row_on_shard healthy placed own found compared literal member passes

end

/-- A query that is planned for one shard by a text it compares the key column of its table with has the same
answers from the rows of that shard as from all rows, if each nested query has on the rows with this key. -/
theorem singleShard_answers {m : Meaning} {snap : ClusterSnapshot} {query : Query} {select : Select} {e : Expr}
    {sql column table k : Str} {registry : TableRegistry} {allow : Bool} {tables : Nat → Tables}
    {operand : Expr} {shard : ShardConfig} (healthy : snap.AllHealthy) (placed : Placed snap column tables)
    (planned : planQuery query sql column registry allow = .ok (.singleShard table (some k) none))
    (own : eqIgnoreAsciiCase (snap.tableRegistry.shardKeyFor table column) column = true)
    (body : query.body = .select select) (alone : select.sourceClauses = []) (condition : select.selection = some e)
    (compared : keyOperand e column = some operand) (literal : IsStringLiteral operand k)
    (found : snap.shardForKey k .pg = .ok shard)
    (same : SameForKey m query column k (tables shard.id) (unionTables (shardIds snap) tables)) (out : Answer) :
    m.IsAnswer (tables shard.id) query out ↔ m.IsAnswer (unionTables (shardIds snap) tables) query out := by
  obtain ⟨noWith, select', e', body', primary, _⟩ := planQuery_single planned
  obtain rfl : select = select' := by
    rw [body] at body'
    exact SetExpr.select.inj body'
  obtain ⟨name, source, rfl⟩ := primaryTable_source primary
  have rows := filtered_union healthy placed own found compared literal body source alone condition same
  exact (same.isAnswer compared literal noWith body condition rows).symm

/-! ### A nested query that reads every row -/

def tradesFrom : List TableWithJoins := [⟨.table [.identifier "trades".toList], []⟩]

/-- `symbol = 'A'` -/
def symbolEqualsA : Expr := .binaryOp (columnNamed "symbol") .eq (.value (.singleQuotedString "A".toList))

/-- `SELECT avg(price) FROM trades` -/
def averagePrice : Query where
  body := .select {
    projection := [.unnamedExpr (.function { name := "avg".toList, args := .list false [.unnamed (columnNamed "price")] })]
    source := tradesFrom
    groupBy := .expressions [] }

/-- `SELECT price FROM trades WHERE` and a condition. -/
def pricesSelect (condition : Expr) : Select where
  projection := [.unnamedExpr (columnNamed "price")]
  source := tradesFrom
  selection := some condition
  groupBy := .expressions []

def pricesWhere (condition : Expr) : Query where
  body := .select (pricesSelect condition)

/-- `symbol = 'A' AND price > (SELECT avg(price) FROM trades)` -/
def aboveAverage : Expr :=
  .binaryOp symbolEqualsA .and (.binaryOp (columnNamed "price") (.other ">".toList) (.subquery averagePrice))

def trade (symbol : String) (price : ℚ) : Record := plainRecord symbol.toList (.number price)

/-- Two trades of `A` on the first shard, one of `B` on the second. -/
def tradesOn : Nat → Tables
  | 0, _ => [trade "A" 10, trade "A" 30]
  | 1, _ => [trade "B" 100]
  | _, _ => []

def symbolCluster : ClusterSnapshot := twoShards "B".toList []

theorem symbolCluster_healthy : symbolCluster.AllHealthy := sendingKey_allHealthy _ _

/-- Without a configured table, every table has the default key column. -/
theorem symbolCluster_shardKeyFor (table default : Str) :
    symbolCluster.tableRegistry.shardKeyFor table default = default := rfl

theorem tradesOn_placed : Placed symbolCluster "symbol".toList tradesOn := by
  intro id name row member k key
  rw [symbolCluster_shardKeyFor] at key
  have target := sendingKey_shardForKey "B".toList k (.fromConfig []) .ilp
  have symbol : ∀ s p, (trade s p).column "symbol".toList = .text s.toList := fun _ _ => rfl
  match id with
  | 0 =>
    have here : row.column "symbol".toList = .text "A".toList := by
      rcases List.mem_cons.mp member with rfl | last
      · exact symbol "A" 10
      · obtain rfl := List.mem_singleton.mp last
        exact symbol "A" 30
    obtain rfl : "A".toList = k := Val.text.inj (here.symm.trans key)
    exact ⟨shardA, target, rfl⟩
  | 1 =>
    obtain rfl := List.mem_singleton.mp member
    obtain rfl : "B".toList = k := Val.text.inj ((symbol "B" 100).symm.trans key)
    exact ⟨shardB, target, rfl⟩
  | n + 2 => exact nomatch member

theorem symbolEqualsA_answers :
    Meaning.plain.IsAnswer (tradesOn shardA.id) (pricesWhere symbolEqualsA) [[.number 10], [.number 30]] ↔
      Meaning.plain.IsAnswer (unionTables (shardIds symbolCluster) tradesOn) (pricesWhere symbolEqualsA)
        [[.number 10], [.number 30]] := by
  have planned : planQuery (pricesWhere symbolEqualsA) [] "symbol".toList (.fromConfig []) false =
      .ok (.singleShard "trades".toList (some "A".toList) none) := by decide +kernel
  have own : eqIgnoreAsciiCase (symbolCluster.tableRegistry.shardKeyFor "trades".toList "symbol".toList)
      "symbol".toList = true := by decide +kernel
  have found : symbolCluster.shardForKey "A".toList .pg = .ok shardA := sendingKey_shardForKey _ _ _ _
  have literal : IsStringLiteral (.value (.singleQuotedString "A".toList)) "A".toList := ⟨_, rfl, .inl rfl⟩
  have same : SameForKey Meaning.plain (pricesWhere symbolEqualsA) "symbol".toList "A".toList (tradesOn shardA.id)
      (unionTables (shardIds symbolCluster) tradesOn) := by
    intro q member
    rw [show querySubqueries (pricesWhere symbolEqualsA) = [] from rfl] at member
    cases member
  exact singleShard_answers symbolCluster_healthy tradesOn_placed planned own rfl rfl rfl rfl literal found same _

/-- The average is that of the first shard there, and that of all trades over all rows. -/
theorem nested_query_reads_one_shard :
    Placed symbolCluster "symbol".toList tradesOn ∧
    symbolCluster.shardForKey "A".toList .pg = .ok shardA ∧
    planQuery (pricesWhere aboveAverage) [] "symbol".toList (.fromConfig []) false =
      .ok (.singleShard "trades".toList (some "A".toList) none) ∧
    Meaning.plain.IsAnswer (tradesOn shardA.id) (pricesWhere aboveAverage) [[.number 30]] ∧
    ¬ Meaning.plain.IsAnswer (unionTables (shardIds symbolCluster) tradesOn) (pricesWhere aboveAverage)
      [[.number 30]] := by
  have answers : ∀ {tables : Tables} {out : Answer}, Meaning.plain.IsAnswer tables (pricesWhere aboveAverage) out ↔
      out.Perm ((Meaning.plain.results tables (pricesWhere aboveAverage) (pricesSelect aboveAverage)).map OutputRow.cells) :=
    Meaning.isAnswer_rows rfl rfl rfl ⟨rfl, rfl, rfl, rfl⟩ rfl
  refine ⟨tradesOn_placed, sendingKey_shardForKey _ _ _ _, by decide +kernel, ?_, ?_⟩
  · have answer : (Meaning.plain.results (tradesOn shardA.id) (pricesWhere aboveAverage) (pricesSelect aboveAverage)).map
        OutputRow.cells = [[.number 30]] := by decide +kernel
    rw [answers, answer]
  · rw [answers]
    intro perm
    have none := perm.length_eq
    revert none
    decide +kernel

end QuestRouter.Routing
