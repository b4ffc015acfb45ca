import QuestRouter.Federated.AggregateScan

/-!
# Averages

An average is asked for as a sum and a count. The sums and the counts of the shards add up to those of all
rows, and a shard without a number has no sum and adds nothing.
-/

namespace QuestRouter.Federated
open Text Sql Routing Metadata

/-! ### Partial sums and counts -/

def partialRow (cells : List Cell) : DataRow := [SetFunction.sum.value cells, SetFunction.count.value cells]

def partialPair (ns : List ℚ) : Option (ℚ × ℚ) := if ns = [] then none else some (ns.sum, ns.length)

theorem sumAndCount_partialRow (parse : Str → Option ℚ) {cells : List Cell}
    (numeric : cells.all Val.isNumeric = true) : sumAndCount parse (partialRow cells) = partialPair (numbers cells) := by
  have sum : SetFunction.sum.value cells = .ofNumber (if numbers cells = [] then none else some (numbers cells).sum) := by
    rw [SetFunction.value, Data.reduce_add]
  have count : SetFunction.count.value cells = .number (numbers cells).length := by
    rw [SetFunction.value, SetFunction.count_numeric numeric]
  rw [partialRow, sum, count, partialPair]
  split <;> rfl

theorem sum_fst_partialPair (parts : List (List ℚ)) :
    ((parts.filterMap partialPair).map Prod.fst).sum = parts.flatten.sum := by
  induction parts with
  | nil => rfl
  | cons ns parts ih =>
    rw [List.flatten_cons, List.sum_append, ← ih, List.filterMap_cons, partialPair]
    by_cases empty : ns = []
    · simp [empty]
    · simp [empty]

theorem sum_snd_partialPair (parts : List (List ℚ)) :
    ((parts.filterMap partialPair).map Prod.snd).sum = parts.flatten.length := by
  induction parts with
  | nil => rfl
  | cons ns parts ih =>
    rw [List.flatten_cons, List.length_append, Nat.cast_add, ← ih, List.filterMap_cons, partialPair]
    by_cases empty : ns = []
    · simp [empty]
    · simp [empty]

/-- The partial rows give the average of all cells, and nothing only if there is no number. -/
theorem mergeAvg_partials (parse : Str → Option ℚ) {shardResults : List (Nat × List ClientResponse)}
    {parts : List (List Cell)} (numeric : ∀ cells ∈ parts, cells.all Val.isNumeric = true)
    (rows : responseRows shardResults = parts.map partialRow) :
    responseCell (mergeAvg parse shardResults) = SetFunction.avg.value parts.flatten ∧
      (mergeAvg parse shardResults = [.emptyQuery] ↔ numbers parts.flatten = []) := by
  have pairs : (responseRows shardResults).filterMap (sumAndCount parse) =
      (parts.map numbers).filterMap partialPair := by
    rw [rows, List.filterMap_map, List.filterMap_map]
    exact List.filterMap_congr fun cells member => sumAndCount_partialRow parse (numeric cells member)
  have sum := sum_fst_partialPair (parts.map numbers)
  have count := sum_snd_partialPair (parts.map numbers)
  rw [← SetFunction.numbers_flatten] at sum count
  have value : SetFunction.avg.value parts.flatten = .ofNumber (SetFunction.average (numbers parts.flatten)) := rfl
  rw [value, SetFunction.average]
  unfold mergeAvg
  simp only [pairs, sum, count]
  by_cases empty : numbers parts.flatten = []
  · rw [if_pos empty, if_pos (by simp [empty])]
    exact ⟨rfl, iff_of_true rfl empty⟩
  · have some_count : ((numbers parts.flatten).length : ℚ) ≠ 0 := by
      rw [Nat.cast_ne_zero]
      exact fun none => empty (List.length_eq_zero_iff.mp none)
    have some_pairs : ((parts.map numbers).filterMap partialPair).isEmpty = false := by
      rw [List.isEmpty_eq_false_iff]
      intro none
      rw [none] at count
      exact some_count count.symm
    rw [if_neg empty, if_neg]
    · refine ⟨rfl, iff_of_false (fun same => ?_) empty⟩
      cases same
    · rw [some_pairs, Bool.false_or, decide_eq_true_eq]
      exact some_count

/-! ### The rewritten statement -/

def sumItem (e : Expr) : SelectItem := .unnamedExpr (.function (callOn "sum".toList false e))

def countItem (e : Expr) : SelectItem := .unnamedExpr (.function (callOn "count".toList false e))

def sumCountSelect (select : Select) (e : Expr) : Select := { select with projection := [sumItem e, countItem e] }

def sumCountQuery (query : Query) (select : Select) (e : Expr) : Query :=
  { query with body := .select (sumCountSelect select e) }

/-- The one item is an average of numbers. -/
structure AveragesAlone (m : Meaning) (q : Query) (select : Select) (f : Function) (e : Expr) (tables : Tables) : Prop
    extends CallAlone m q select f where
  first : ∃ distinct rest, f.args = .list distinct (.unnamed e :: rest)
  numeric : (m.exprCells select e tables).all Val.isNumeric = true

/-- What is rewritten away does not change the average of the first argument. -/
def AveragesPlainly (m : Meaning) (select : Select) (f : Function) (e : Expr) (tables : Tables) : Prop :=
  m.aggregated f.name f.args.distinct (callRows m select f tables) = SetFunction.avg.value (m.exprCells select e tables)

/-- No row has a number to average. -/
def NothingContributes (m : Meaning) (select : Select) (f : Function) (tables : Tables) : Prop :=
  ∀ args ∈ callRows m select f tables, Meaning.argument args = .null

theorem avg_of_setFunction {name : Str} (known : setFunction name = some .avg) :
    eqIgnoreAsciiCase name "avg".toList = true := by
  unfold setFunction at known
  split_ifs at known <;> first | assumption | cases known

theorem rewriteAvgToSumCount_eq {parser : SqlParser} {exprText : Expr → Str} {sql : Str} {query : Query}
    {select : Select} {f : Function} {e : Expr} (parsed : parser.parseSql sql = .ok [.query query])
    (body : query.body = .select select) (alone : select.projection = [.unnamedExpr (.function f)])
    (first : ∃ distinct rest, f.args = .list distinct (.unnamed e :: rest))
    (avg : eqIgnoreAsciiCase f.name "avg".toList = true)
    (helper : helperProjection parser (helperSql (exprText e)) = some [sumItem e, countItem e]) :
    rewriteAvgToSumCount parser exprText sql = some (parser.display (.query (sumCountQuery query select e))) := by
  obtain ⟨distinct, rest, args⟩ := first
  have arg : select.projection.foldl (avgArg exprText) none = some (exprText e) := by
    rw [alone, List.foldl_cons, List.foldl_nil, avgArg, if_pos avg, args]
    rfl
  rw [rewriteAvgToSumCount, parsed]
  simp only [body, arg, helper, Option.bind_eq_bind, Option.bind_some]
  rfl

section
variable {m : Meaning} {x : FederatedExecutor} {shardIds : List Nat} {tables : Nat → Tables} {has : Nat → Bool}
  {fields : List FieldInfo} {sql : Str} {q : Query} {select : Select} {f : Function} {e : Expr}
  {outs : Nat → List DataRow}

section
variable {table : ObjectName} (source : select.source = [⟨.table table, []⟩]) (alone : select.sourceClauses = [])
  (body : q.body = .select select) (same : SameOnShards m q select shardIds tables)
  (nested : e.nestedQueries ⊆ subqueries q select)

include source alone body same nested

theorem exprCells_union : m.exprCells select e (unionTables shardIds tables) =
    shardIds.flatMap fun id => m.exprCells select e (tables id) := by
  rw [Meaning.exprCells, filtered_shards source alone body same, List.map_flatMap]
  refine List.flatMap_congr fun id member => List.map_congr_left fun row inside => ?_
  exact Meaning.eval_congr e (Meaning.alike_of_same (same.filtered body member)
    (Meaning.within_row (List.mem_cons_of_mem _ inside)) rfl nested)

theorem exprCells_present
    (serves : Serves m x shardIds tables has fields sql (sumCountQuery q select e)) :
    m.exprCells select e (unionTables shardIds tables) =
      ((shardIds.filter has).map fun id => m.exprCells select e (tables id)).flatten := by
  have absent : ∀ id ∈ shardIds, has id = false → m.exprCells select e (tables id) = [] := by
    intro id member missing
    have nothing : m.filtered (tables id) select = [] := serves.filtered_missing rfl id member missing
    rw [Meaning.exprCells, nothing]
    rfl
  rw [exprCells_union source alone body same nested, flatMap_present absent, List.flatMap_def]

end

theorem argument_mem_exprCells (first : ∃ distinct rest, f.args = .list distinct (.unnamed e :: rest)) {T : Tables}
    {args : List Cell} (member : args ∈ callRows m select f T) : Meaning.argument args ∈ m.exprCells select e T := by
  obtain ⟨distinct, rest, same⟩ := first
  obtain ⟨row, kept, rfl⟩ := List.mem_map.mp member
  have cell : Meaning.argument (m.evalArguments f.args ⟨T, [], [], row⟩) = m.eval e ⟨T, [], [], row⟩ := by
    rw [same, Meaning.evalArguments, Meaning.evalArgs, Meaning.evalArg]
    rfl
  rw [cell]
  exact List.mem_map_of_mem (List.mem_filter.mp kept).1

theorem AveragesAlone.scalar_first {T : Tables} (one : AveragesAlone m q select f e T) :
    ∀ g ∈ e.calls, m.isScalarCall g = true := by
  obtain ⟨distinct, rest, same⟩ := one.first
  intro g member
  apply one.scalar
  rw [same, FunctionArguments.calls, callsOfArgs, FunctionArg.calls]
  exact List.mem_append_left _ (List.mem_append_left _ member)

theorem AveragesAlone.nested_first {T : Tables} (one : AveragesAlone m q select f e T) :
    e.nestedQueries ⊆ subqueries q select := by
  obtain ⟨distinct, rest, same⟩ := one.first
  refine List.Subset.trans ?_ (nestedQueries_of_alone one.alone)
  obtain ⟨name, args, filter, overClause, clauses⟩ := f
  simp only at same
  rw [Expr.nestedQueries, Function.nestedQueries, same, FunctionArguments.nestedQueries, nestedOfArgs,
    FunctionArg.nestedQueries, List.append_assoc]
  exact List.subset_append_left _ _

theorem setFunction_sum : setFunction "sum".toList = some .sum := rfl

theorem setFunction_count : setFunction "count".toList = some .count := rfl

theorem AveragesAlone.keyless {T : Tables} (one : AveragesAlone m q select f e T)
    (groupBy : select.groupBy = .expressions []) :
    m.OnlyCalls (sumCountQuery q select e) (sumCountSelect select e)
      [callOn "sum".toList false e, callOn "count".toList false e] where
  plain := one.plain
  projection := rfl
  present := List.cons_ne_nil _ _
  groupBy := groupBy
  having := one.having
  qualify := one.qualify
  bare g member := by
    rcases List.mem_cons.mp member with rfl | member
    · exact Meaning.isBareCall_callOn setFunction_sum one.scalar_first
    · obtain rfl := List.mem_singleton.mp member
      exact Meaning.isBareCall_callOn setFunction_count one.scalar_first

theorem AveragesAlone.sumCount_cells {T T' : Tables} (one : AveragesAlone m q select f e T')
    (groupBy : select.groupBy = .expressions []) (numeric : (m.exprCells select e T).all Val.isNumeric = true) :
    (m.wholeRow T (sumCountQuery q select e) (sumCountSelect select e)).cells = partialRow (m.exprCells select e T) := by
  have sum := Meaning.aggregated_callOn (m := m) setFunction_sum (SetFunction.covers_of_numeric .sum numeric)
  have count := Meaning.aggregated_callOn (m := m) setFunction_count (SetFunction.covers_of_numeric .count numeric)
  rw [(one.keyless groupBy).cells, partialRow, ← sum, ← count]
  rfl

/-- The rewritten statement nests no other queries. -/
theorem sumCountQuery_same {T : Tables} (one : AveragesAlone m q select f e T) (body : q.body = .select select)
    (same : SameOnShards m q select shardIds tables) :
    SameOnShards m (sumCountQuery q select e) (sumCountSelect select e) shardIds tables := by
  intro id member
  have here := same id member
  rw [querySubqueries_select body] at here
  rw [querySubqueries_select rfl]
  refine here.mono ?_ (List.Subset.refl _)
  intro query inside
  obtain ⟨e', listed, nested⟩ := List.mem_flatMap.mp inside
  rcases List.mem_append.mp listed with item | other
  · have nested' : query ∈ e.nestedQueries := by
      have items : e' = .function (callOn "sum".toList false e) ∨ e' = .function (callOn "count".toList false e) := by
        simpa [sumCountSelect, sumItem, countItem, SelectItem.expr] using item
      rcases items with rfl | rfl <;>
        simpa [callOn, Expr.nestedQueries, Function.nestedQueries, FunctionArguments.nestedQueries, nestedOfArgs,
          FunctionArg.nestedQueries, nestedOfOption, nestedOfClause, nestedOfClauses] using nested
    exact one.nested_first nested'
  · have elsewhere : e' ∈ queryExprs q select := List.mem_append_right _ other
    exact Meaning.subqueries_of_mem elsewhere nested

theorem mergeAvg_nothing (parse : Str → Option ℚ) {shardResults : List (Nat × List ClientResponse)}
    (rows : responseRows shardResults = []) : mergeAvg parse shardResults = [.emptyQuery] := by
  rw [mergeAvg, rows]
  rfl

end

/-- The sums and counts of the shards give the average over all rows, and nothing only if no row has a number to
average, where what is rewritten away makes no difference. -/
theorem averageScan_value_iff {m : Meaning} {x : FederatedExecutor} {query : Query} {select : Select} {f : Function}
    {e : Expr} {sql column table : Str} {registry : TableRegistry} {allow : Bool} {shardIds : List Nat}
    {tables : Nat → Tables} {has : Nat → Bool} {fields : List FieldInfo}
    (parsed : x.parser.parseSql sql = .ok [.query query])
    (planned : planQuery query sql column registry allow = .ok (.aggregateScan table .avg))
    (body : query.body = .select select) (one : AveragesAlone m query select f e (unionTables shardIds tables))
    (helper : helperProjection x.parser (helperSql (x.exprText e)) = some [sumItem e, countItem e])
    (serves : Serves m x shardIds tables has fields (x.parser.display (.query (sumCountQuery query select e)))
      (sumCountQuery query select e))
    (same : SameOnShards m query select shardIds tables) :
    ∃ responses out, executeAggregateScan x sql .avg = .ok responses ∧
      (∀ out', m.IsAnswer (unionTables shardIds tables) query out' ↔ out' = out) ∧
      (responseCell responses = onlyCell out ∧
          (responses = [.emptyQuery] → NothingContributes m select f (unionTables shardIds tables)) ↔
        m.Keeps (unionTables shardIds tables) query select ∧
            AveragesPlainly m select f e (unionTables shardIds tables) ∨
          m.Drops (unionTables shardIds tables) query select ∧
            NothingContributes m select f (unionTables shardIds tables)) := by
  obtain ⟨noWith, ⟨source, fromTable⟩, groupBy, bare⟩ := planQuery_aggregateScan planned body
  rw [one.alone] at bare
  have known := bareAggregate_one bare
  have union := exprCells_present fromTable one.sourceClauses body same one.nested_first serves
  have numeric : ∀ cells ∈ (shardIds.filter has).map (fun id => m.exprCells select e (tables id)),
      cells.all Val.isNumeric = true := by
    have whole := one.numeric
    rw [union, List.all_flatten, List.all_eq_true] at whole
    exact whole
  have keyless := (one.toCallAlone.onlyCalls groupBy known).keyless
  have partials := (one.keyless groupBy).keyless
  have noWith' : (sumCountQuery query select e).withClause = false := noWith
  have same' := sumCountQuery_same one body same
  obtain ⟨outs, answers, sent⟩ := serves.queryAllShards
  have rewritten := rewriteAvgToSumCount_eq parsed body one.alone one.first (avg_of_setFunction known) helper
  have executed : executeAggregateScan x sql .avg =
      .ok (mergeAvg x.parseF64 (shardIds.map (shardAnswers has fields outs))) := by
    rw [executeAggregateScan, rewritten]
    simp only [sent]
    rfl
  rcases m.keeps_or_drops (unionTables shardIds tables) query select with keeps | drops
  · have keeps' : m.Keeps (unionTables shardIds tables) (sumCountQuery query select e) (sumCountSelect select e) := keeps
    have rows : responseRows (shardIds.map (shardAnswers has fields outs)) =
        ((shardIds.filter has).map fun id => m.exprCells select e (tables id)).map partialRow := by
      rw [keyless_shardRows noWith' rfl same' answers partials keeps', List.map_map]
      exact List.map_congr_left fun id inside =>
        one.sumCount_cells groupBy (numeric _ (List.mem_map_of_mem inside))
    obtain ⟨value, empty⟩ := mergeAvg_partials x.parseF64 numeric rows
    rw [← union] at value empty
    have nothing : mergeAvg x.parseF64 (shardIds.map (shardAnswers has fields outs)) = [.emptyQuery] →
        NothingContributes m select f (unionTables shardIds tables) := by
      intro none args member
      exact (SetFunction.numbers_eq_nil one.numeric).mp (empty.mp none) _ (argument_mem_exprCells one.first member)
    refine ⟨_, _, executed, fun _ => keyless.isAnswer_kept noWith body keeps, ?_⟩
    rw [and_iff_left nothing, or_iff_left fun dropped => keeps.not_drops dropped.1, and_iff_right keeps, value,
      one.toCallAlone.cells groupBy known]
    exact eq_comm
  · have drops' : m.Drops (unionTables shardIds tables) (sumCountQuery query select e) (sumCountSelect select e) := drops
    have rows : responseRows (shardIds.map (shardAnswers has fields outs)) = [] :=
      keyless_noRows noWith' rfl same' answers partials drops'
    refine ⟨_, _, executed, fun _ => keyless.isAnswer_dropped noWith body drops, ?_⟩
    rw [mergeAvg_nothing x.parseF64 rows, or_iff_right fun kept => kept.1.not_drops drops, and_iff_right drops]
    exact ⟨fun claimed => claimed.2 rfl, fun nothing => ⟨rfl, fun _ => nothing⟩⟩

/-- `avg(price)` or `avg(DISTINCT price)` -/
def avgPrice (distinct : Bool) : SelectItem := .unnamedExpr (.function (callOnPrice "avg" distinct))

def avgText (distinct : Bool) : Str :=
  (if distinct then "SELECT avg(DISTINCT price) FROM trades" else "SELECT avg(price) FROM trades").toList

def sumCountText : Str := "SELECT sum(price), count(price) FROM trades".toList

/-- A parser that reads the statement and the sum and the count of `price`. -/
def avgParser (distinct : Bool) : SqlParser where
  parseSql text :=
    if text = avgText distinct then .ok [.query (selectTrades (avgPrice distinct))]
    else if text = helperSql "price".toList then
      .ok [.query { body := .select {
        projection := [sumItem (columnNamed "price"), countItem (columnNamed "price")]
        source := []
        groupBy := .expressions [] } }]
    else .error []
  display _ := sumCountText

theorem avgParser_reads (distinct : Bool) :
    (avgParser distinct).parseSql (avgText distinct) = .ok [.query (selectTrades (avgPrice distinct))] := by
  simp [avgParser]

def columnText : Expr → Str
  | .identifier value => value
  | _ => []

def partialsQuery (distinct : Bool) : Query :=
  sumCountQuery (selectTrades (avgPrice distinct)) (tradesSelect (avgPrice distinct)) (columnNamed "price")

def avgExecutor (tables : Nat → Tables) (distinct : Bool) : FederatedExecutor :=
  { sending [] (fun id => (Meaning.plain.results (tables id) (partialsQuery distinct)
      (sumCountSelect (tradesSelect (avgPrice distinct)) (columnNamed "price"))).map OutputRow.cells) with
    parser := avgParser distinct
    exprText := columnText }

theorem avgExecutor_serves (tables : Nat → Tables) (distinct : Bool) :
    Serves Meaning.plain (avgExecutor tables distinct) [0, 1] tables (fun _ => true) [] sumCountText
      (partialsQuery distinct) := by
  have sends : Serves Meaning.plain (sending [] _) [0, 1] tables (fun _ => true) [] sumCountText
      (partialsQuery distinct) := sending_serves rfl rfl rfl ⟨rfl, rfl, rfl, rfl⟩ rfl [] sumCountText tables
  exact ⟨sends.healthy, sends.answers, sends.missing, sends.empty⟩

theorem avgPrice_value : ∃ responses out,
    executeAggregateScan (avgExecutor tradesOn false) (avgText false) .avg = .ok responses ∧
      (∀ out', Meaning.plain.IsAnswer (unionTables [0, 1] tradesOn) (selectTrades (avgPrice false)) out' ↔ out' = out) ∧
      responseCell responses = onlyCell out ∧
      (responses = [.emptyQuery] → NothingContributes Meaning.plain (tradesSelect (avgPrice false))
        (callOnPrice "avg" false) (unionTables [0, 1] tradesOn)) := by
  have planned : planQuery (selectTrades (avgPrice false)) (avgText false) "symbol".toList (.fromConfig []) false =
      .ok (.aggregateScan "trades".toList .avg) := by decide +kernel
  have one : AveragesAlone Meaning.plain (selectTrades (avgPrice false)) (tradesSelect (avgPrice false))
      (callOnPrice "avg" false) (columnNamed "price") (unionTables [0, 1] tradesOn) :=
    ⟨⟨rfl, rfl, rfl, rfl, rfl, rfl, rfl, nofun⟩, ⟨false, [], rfl⟩, by decide +kernel⟩
  have plainly : AveragesPlainly Meaning.plain (tradesSelect (avgPrice false)) (callOnPrice "avg" false)
      (columnNamed "price") (unionTables [0, 1] tradesOn) :=
    Meaning.aggregated_callOn rfl (SetFunction.covers_of_numeric _ one.numeric)
  obtain ⟨responses, out, executed, answer, claim⟩ := averageScan_value_iff (avgParser_reads false) planned rfl one rfl
    (avgExecutor_serves _ _) (selectTrades_same _ rfl _ _)
  exact ⟨responses, out, executed, answer, claim.mpr (.inl ⟨fun _ => rfl, plainly⟩)⟩

def repeatedPriceOn : Nat → Tables
  | 0, _ => [trade "A" 10, trade "A" 10]
  | 1, _ => [trade "B" 40]
  | _, _ => []

/-- `DISTINCT` is not rewritten: the average of all prices is sent back for that of the distinct ones. -/
theorem distinct_average_dropped :
    planQuery (selectTrades (avgPrice true)) (avgText true) "symbol".toList (.fromConfig []) false =
      .ok (.aggregateScan "trades".toList .avg) ∧
    rewriteAvgToSumCount (avgParser true) columnText (avgText true) = some sumCountText ∧
    Serves Meaning.plain (avgExecutor repeatedPriceOn true) [0, 1] repeatedPriceOn (fun _ => true) [] sumCountText
      (partialsQuery true) ∧
    executeAggregateScan (avgExecutor repeatedPriceOn true) (avgText true) .avg =
      .ok [.query avgField [[.number 20]]] ∧
    ∀ out, Meaning.plain.IsAnswer (unionTables [0, 1] repeatedPriceOn) (selectTrades (avgPrice true)) out →
      onlyCell out = .number 25 := by
  have answer : (Meaning.plain.results (unionTables [0, 1] repeatedPriceOn) (selectTrades (avgPrice true))
      (tradesSelect (avgPrice true))).map OutputRow.cells = [[.number 25]] := by decide +kernel
  refine ⟨by decide +kernel, rfl, avgExecutor_serves _ _, by decide +kernel, ?_⟩
  intro out isAnswer
  rw [selectTrades_isAnswer, answer, List.perm_singleton] at isAnswer
  rw [isAnswer]
  rfl

end QuestRouter.Federated
