import QuestRouter.Data.Repeated
import QuestRouter.Federated.MergedRows
import QuestRouter.Federated.Shards
import QuestRouter.Sql.Aggregates

/-!
# Full scans

Every statement that is not recognised as something else is scanned: each shard answers it and the rows are
put one after the other. That is an answer over all rows where no row of it is made from the rows of more than
one shard.
-/

namespace QuestRouter.Federated
open Text Sql Routing Metadata

section
variable {m : Meaning} {x : FederatedExecutor} {shardIds : List Nat} {tables : Nat → Tables} {has : Nat → Bool}
  {fields : List FieldInfo} {sql : Str} {q : Query} {select : Select} {outs : Nat → List DataRow}

/-! ### Rows of a scan -/

/-- The statement has none of the clauses that look at more than a row, but for `DISTINCT`, and no item calls an
aggregate or a window function. -/
structure RowWise (m : Meaning) (q : Query) (select : Select) : Prop extends Meaning.Unordered q select where
  plain : isPlain q select = true
  groupBy : select.groupBy = .expressions []
  having : select.having = none
  qualify : select.qualify = none
  items : ∀ e ∈ select.projection.filterMap SelectItem.expr ++ m.distinctKeys select,
    ∀ f ∈ e.calls, m.isScalarCall f = true

theorem Unordered.sortKeys (unordered : Meaning.Unordered q select) : m.sortKeys q select = [] := by
  rw [Meaning.sortKeys, orderExprs, unordered.orderBy]
  rfl

theorem RowWise.ungrouped (rowWise : RowWise m q select) : m.isGrouped q select = false := by
  have plain : (m.resultExprs q select).any m.hasAggregate = false := by
    rw [List.any_eq_false]
    intro e member aggregates
    rw [Meaning.resultExprs, rowWise.qualify, Unordered.sortKeys rowWise.toUnordered, Option.toList_none,
      List.nil_append, List.append_nil] at member
    obtain ⟨f, called, found⟩ := List.any_eq_true.mp aggregates
    have scalar := rowWise.items e member f called
    simp only [Meaning.isScalarCall, Bool.and_eq_true, Bool.not_eq_true'] at scalar found
    rw [scalar.2] at found
    cases found.2
  rw [Meaning.isGrouped, rowWise.groupBy, rowWise.having, plain]
  rfl

/-- The row of the answer that a row of the table gives. -/
def scanRow (m : Meaning) (q : Query) (select : Select) (tables : Tables) (row : Record) : OutputRow :=
  m.resultRow q select ⟨tables, [], [], row⟩

def scanRows (m : Meaning) (q : Query) (select : Select) (tables : Tables) : List OutputRow :=
  (m.filtered tables select).map (scanRow m q select tables)

theorem RowWise.resultRow (rowWise : RowWise m q select) {tables tables' : Tables} {row : Record}
    (same : m.SameOn (subqueries q select) [row] tables tables') (groups : List (List Record)) (group : List Record) :
    m.resultRow q select ⟨tables', groups, group, row⟩ = scanRow m q select tables row := by
  have value : ∀ e ∈ select.projection.filterMap SelectItem.expr ++ m.distinctKeys select,
      e.nestedQueries ⊆ subqueries q select →
      m.eval e ⟨tables', groups, group, row⟩ = m.eval e ⟨tables, [], [], row⟩ := by
    intro e member nested
    have scalar := rowWise.items e member
    exact Meaning.eval_congr e ⟨rfl, same.mono nested (List.Subset.refl _), .inr scalar,
      .inr fun f called => Meaning.overClause_of_isScalarCall (scalar f called)⟩
  have cells : m.outputCells select ⟨tables', groups, group, row⟩ = m.outputCells select ⟨tables, [], [], row⟩ := by
    apply List.flatMap_congr
    intro item listed
    unfold Meaning.itemCells
    split
    · rename_i e found
      have member : e ∈ select.projection.filterMap SelectItem.expr := List.mem_filterMap.mpr ⟨item, listed, found⟩
      rw [value e (List.mem_append_left _ member) (Meaning.item_members listed found)]
    · rfl
  have apart : m.evalAll (m.distinctKeys select) ⟨tables', groups, group, row⟩ =
      m.evalAll (m.distinctKeys select) ⟨tables, [], [], row⟩ :=
    Meaning.evalAll_eq fun e member =>
      value e (List.mem_append_right _ member) (Meaning.distinctKeys_members e member)
  rw [scanRow, Meaning.resultRow, Meaning.resultRow, Unordered.sortKeys rowWise.toUnordered, cells, apart]
  rfl

theorem RowWise.results (rowWise : RowWise m q select) (T : Tables) : m.results T q select = scanRows m q select T := by
  rw [Meaning.results, Meaning.scopes, Meaning.keptGroups, rowWise.ungrouped, rowWise.qualify]
  simp only [Bool.false_eq_true, if_false, List.map_map, Meaning.passes, List.filter_true]
  apply List.map_congr_left
  intro row _
  exact rowWise.resultRow (fun _ _ _ _ => rfl) _ _

/-- The statement gives a row for each group of rows, and nothing is asked of the groups. -/
structure Grouped (m : Meaning) (q : Query) (select : Select) : Prop extends Meaning.Unordered q select where
  plain : isPlain q select = true
  grouped : m.isGrouped q select = true
  keys : m.groupKeys select ≠ []
  having : select.having = none
  qualify : select.qualify = none
  distinct : select.distinct = none
  items : ∀ e ∈ select.projection.filterMap SelectItem.expr, ∀ f ∈ e.calls, f.overClause = none

def groupKey (m : Meaning) (select : Select) (tables : Tables) (row : Record) : List Cell :=
  m.evalAll (m.groupKeys select) ⟨tables, [], [], row⟩

/-- The key of each row of the table. -/
def keyRows (m : Meaning) (select : Select) (tables : Tables) : List (List Cell) :=
  (m.filtered tables select).map (groupKey m select tables)

def groupCells (m : Meaning) (select : Select) (tables : Tables) (group : List Record) : DataRow :=
  m.outputCells select ⟨tables, [], group, group.headD nullRecord⟩

def keyCells (m : Meaning) (select : Select) (tables : Tables) (key : List Cell) : DataRow :=
  groupCells m select tables ((m.filtered tables select).filter fun row => groupKey m select tables row = key)

theorem Grouped.groupCells_among (groups : Grouped m q select) (T : Tables) (others : List (List Record))
    (group : List Record) :
    m.outputCells select ⟨T, others, group, group.headD nullRecord⟩ = groupCells m select T group := by
  apply List.flatMap_congr
  intro item listed
  unfold Meaning.itemCells
  split
  · rename_i e found
    have windowless := groups.items e (List.mem_filterMap.mpr ⟨item, listed, found⟩)
    have alike : m.Alike e.nestedQueries e.calls ⟨T, [], group, group.headD nullRecord⟩
        ⟨T, others, group, group.headD nullRecord⟩ :=
      ⟨rfl, fun _ _ _ _ => rfl, .inl ⟨rfl, fun _ _ _ _ => rfl⟩, .inr windowless⟩
    exact congrArg ([·]) (Meaning.eval_congr e alike)
  · rfl

theorem Grouped.isAnswer (groups : Grouped m q select) (noWith : q.withClause = false)
    (body : q.body = .select select) {T : Tables} {out : List DataRow} :
    m.IsAnswer T q out ↔ out.Perm ((keyRows m select T).dedup.map (keyCells m select T)) := by
  have some_keys : (m.groupKeys select).isEmpty = false := List.isEmpty_eq_false_iff.mpr groups.keys
  have rows : (m.results T q select).map OutputRow.cells = (keyRows m select T).dedup.map (keyCells m select T) := by
    rw [Meaning.results, Meaning.scopes, Meaning.keptGroups, groups.grouped, groups.having, groups.qualify,
      Meaning.groups, some_keys]
    simp only [Bool.false_eq_true, if_false, if_true, Meaning.passes, List.filter_true, List.map_map]
    apply List.map_congr_left
    intro key _
    exact groups.groupCells_among T _ _
  rw [Meaning.isAnswer_rows noWith body groups.plain groups.toUnordered groups.distinct, rows]

section
variable {name : ObjectName} (source : select.source = [⟨.table name, []⟩]) (alone : select.sourceClauses = [])
  (body : q.body = .select select) (same : SameOnShards m q select shardIds tables)

include source alone body same

end

/-! ### Queries that aggregate all rows -/

end

/-! ### Scans -/

end QuestRouter.Federated
