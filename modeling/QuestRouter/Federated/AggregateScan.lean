import QuestRouter.Federated.Shards
import QuestRouter.Sql.Aggregates

/-!
# Aggregate scans

Each shard computes the aggregate of its rows, and the router makes one value of them: the sum of counts and
of sums, the least of minima, the greatest of maxima. That is the aggregate of all rows where the statement
asks for nothing that a shard cannot see of its own rows.
-/

namespace QuestRouter.Federated
open Text Sql Routing Metadata

/-! ### Kinds -/

def setFunctionOf : AggKind → SetFunction
  | .count => .count
  | .sum => .sum
  | .min => .min
  | .max => .max
  | .avg => .avg

theorem setFunction_eq (name : Str) : setFunction name = (aggKindFromFunction name).map setFunctionOf := by
  have lower : toAsciiLowercase "count".toList = "count".toList ∧ toAsciiLowercase "sum".toList = "sum".toList ∧
      toAsciiLowercase "min".toList = "min".toList ∧ toAsciiLowercase "max".toList = "max".toList ∧
      toAsciiLowercase "avg".toList = "avg".toList := by decide
  obtain ⟨count, sum, min, max, avg⟩ := lower
  unfold setFunction aggKindFromFunction
  simp only [eqIgnoreAsciiCase_iff, count, sum, min, max, avg]
  split_ifs <;> rfl

theorem bareAggregate_one {f : Function} {kind : AggKind}
    (h : bareAggregate [.unnamedExpr (.function f)] none = .ok (some kind)) :
    setFunction f.name = some (setFunctionOf kind) := by
  rw [setFunction_eq]
  cases known : aggKindFromFunction f.name with
  | none => simp [bareAggregate, known] at h
  | some k =>
    simp only [bareAggregate, known, Option.isSome_none, Bool.false_eq_true, if_false, Except.ok.injEq,
      Option.some.injEq] at h
    rw [h, Option.map_some]

/-- A plan for an aggregate scan comes from a `SELECT` over one table without keys to group by. -/
theorem planQuery_aggregateScan {query : Query} {select : Select} {sql column table : Str} {registry : TableRegistry}
    {allow : Bool} {kind : AggKind}
    (planned : planQuery query sql column registry allow = .ok (.aggregateScan table kind))
    (body : query.body = .select select) :
    query.withClause = false ∧ (∃ name, select.source = [⟨.table name, []⟩]) ∧ select.groupBy = .expressions [] ∧
      bareAggregate select.projection none = .ok (some kind) := by
  obtain ⟨noWith, select', _, body', primary, unkeyed⟩ := planQuery_unkeyed planned nofun nofun
  obtain rfl : select = select' := SetExpr.select.inj (body.symm.trans body')
  obtain ⟨groupBy, bare⟩ := planUnkeyed_aggregateScan unkeyed
  obtain ⟨name, source, _⟩ := primaryTable_source primary
  exact ⟨noWith, ⟨name, source⟩, groupBy, bare⟩

theorem nestedQueries_of_alone {query : Query} {select : Select} {e : Expr}
    (alone : select.projection = [.unnamedExpr e]) : e.nestedQueries ⊆ subqueries query select := by
  apply Meaning.subqueries_of_mem
  rw [queryExprs, alone]
  exact List.mem_append_left _ (List.mem_singleton_self e)

/-! ### Merged values -/

theorem firstCellF64_ofNumber (parse : Str → Option ℚ) (n : Option ℚ) : firstCellF64 parse [.ofNumber n] = n := by
  cases n <;> rfl

theorem value_eq_ofNumber (fn : SetFunction) (cells : List Cell) : ∃ n, fn.value cells = .ofNumber n := by
  cases fn with
  | count => exact ⟨some _, rfl⟩
  | _ => exact ⟨_, rfl⟩

theorem firstCellF64_value (parse : Str → Option ℚ) (fn : SetFunction) (cells : List Cell) :
    firstCellF64 parse [fn.value cells] = (fn.value cells).number? := by
  obtain ⟨n, same⟩ := value_eq_ofNumber fn cells
  rw [same, firstCellF64_ofNumber, Val.number?_ofNumber]

/-- The number that is made of the numbers of the parts, if there are any. -/
def mergedNumber (kind : AggKind) (values : List ℚ) : Option ℚ :=
  if values.isEmpty then none else some (mergeValues kind values)

theorem mergedNumber_reduce {kind : AggKind} {op : ℚ → ℚ → ℚ} {values : List ℚ}
    (same : values ≠ [] → some (mergeValues kind values) = Data.reduce op values) :
    mergedNumber kind values = Data.reduce op values := by
  cases values with
  | nil => rfl
  | cons n ns => exact same (List.cons_ne_nil n ns)

theorem some_getD_reduce {op : ℚ → ℚ → ℚ} {values : List ℚ} (present : values ≠ []) :
    some ((Data.reduce op values).getD 0) = Data.reduce op values := by
  cases values with
  | nil => exact (present rfl).elim
  | cons n ns => rfl

theorem mergedNumber_sum (values : List ℚ) : mergedNumber .sum values = Data.reduce (· + ·) values := by
  apply mergedNumber_reduce
  intro present
  rw [Data.reduce_add, if_neg present]
  rfl

theorem mergedNumber_parts {kind : AggKind} (notAvg : kind ≠ .avg) {parts : List (List Cell)}
    (present : parts ≠ []) :
    Val.ofNumber (mergedNumber kind (numbers (parts.map (setFunctionOf kind).value))) =
      (setFunctionOf kind).value parts.flatten := by
  cases kind with
  | count =>
    obtain ⟨cells, parts, rfl⟩ := List.exists_cons_of_ne_nil present
    have merged : mergedNumber .count (numbers ((cells :: parts).map SetFunction.count.value)) =
        some (numbers ((cells :: parts).map SetFunction.count.value)).sum := rfl
    rw [setFunctionOf, merged, SetFunction.sum_count]
    rfl
  | sum =>
    rw [setFunctionOf, mergedNumber_sum]
    exact congrArg _ (SetFunction.reduce_numbers _ _)
  | min =>
    rw [setFunctionOf, mergedNumber_reduce some_getD_reduce]
    exact congrArg _ (SetFunction.reduce_numbers _ _)
  | max =>
    rw [setFunctionOf, mergedNumber_reduce some_getD_reduce]
    exact congrArg _ (SetFunction.reduce_numbers _ _)
  | avg => exact (notAvg rfl).elim

/-- The cell that is read from the responses, `NULL` if they have no row. -/
def responseCell : List Response → Cell
  | [.query _ rows] => onlyCell rows
  | _ => .null

/-- The cell that the router writes for a merged value. -/
def writtenCell : Cell → Cell
  | .number n => .number (written n)
  | cell => cell

theorem responseCell_mergeScalarAggregate (parse : Str → Option ℚ) (shardResults : List (Nat × List ClientResponse))
    (kind : AggKind) :
    responseCell (mergeScalarAggregate parse shardResults kind) =
      writtenCell (.ofNumber (mergedNumber kind ((responseRows shardResults).filterMap (firstCellF64 parse)))) := by
  unfold mergeScalarAggregate mergedNumber
  dsimp only
  split <;> rfl

/-- The cell is not a whole number beyond the range of `i64`. -/
def Fits (cell : Cell) : Prop := ∀ n : ℤ, cell = .number n → -2 ^ 63 ≤ n ∧ n < 2 ^ 63

theorem asI64_eq_iff (n : ℤ) : asI64 n = n ↔ -2 ^ 63 ≤ n ∧ n < 2 ^ 63 := by
  unfold asI64
  omega

theorem writtenCell_eq_iff (cell : Cell) : writtenCell cell = cell ↔ Fits cell := by
  cases cell with
  | number n =>
    rw [writtenCell, Val.number.injEq, written]
    split
    · rename_i whole
      have same : (n.num : ℚ) = n := Rat.coe_int_num_of_den_eq_one whole
      rw [← same, Rat.num_intCast, Rat.intCast_inj, asI64_eq_iff]
      constructor
      · intro inside k this
        rw [← Rat.intCast_inj.mp (Val.number.inj this)]
        exact inside
      · exact fun fits => fits n.num rfl
    · rename_i broken
      refine iff_of_true rfl fun k this => (broken ?_).elim
      rw [Val.number.inj this]
      exact Rat.den_intCast k
  | null => exact iff_of_true rfl nofun
  | text s => exact iff_of_true rfl nofun
  | boolean b => exact iff_of_true rfl nofun

/-! ### The scan -/

def callRows (m : Meaning) (select : Select) (f : Function) (tables : Tables) : List (List Cell) :=
  m.argumentRows f tables (m.filtered tables select)

/-- The one item is a call over single rows, and nothing is asked of its value. -/
structure CallAlone (m : Meaning) (q : Query) (select : Select) (f : Function) : Prop where
  plain : isPlain q select = true
  sourceClauses : select.sourceClauses = []
  alone : select.projection = [.unnamedExpr (.function f)]
  overClause : f.overClause = none
  clauses : f.clauses = []
  having : select.having = none
  qualify : select.qualify = none
  scalar : ∀ g ∈ f.args.calls ++ callsOfOption f.filter, m.isScalarCall g = true

/-- The call is an aggregate of numbers, or a count. -/
structure AggregatesAlone (m : Meaning) (q : Query) (select : Select) (f : Function) (kind : AggKind)
    (tables : Tables) : Prop extends CallAlone m q select f where
  few : Meaning.arity f.args ≤ 1
  numeric : (setFunctionOf kind).covers ((callRows m select f tables).map Meaning.argument) = true

/-- The cells that the shards make their values of. -/
def shardCells (m : Meaning) (select : Select) (f : Function) (shardIds : List Nat) (tables : Nat → Tables) : List Cell :=
  shardIds.flatMap fun id => Meaning.seen f.args.distinct (callRows m select f (tables id))

/-- Under `DISTINCT`, what a shard counts or adds that another shard does too makes no difference. -/
def RepeatsAddNothing (m : Meaning) (select : Select) (f : Function) (kind : AggKind) (shardIds : List Nat)
    (tables : Nat → Tables) : Prop :=
  f.args.distinct = true → (setFunctionOf kind).AddsNothing
    ((Data.repeated (shardIds.map fun id => callRows m select f (tables id))).map Meaning.argument)

section
variable {m : Meaning} {x : FederatedExecutor} {shardIds : List Nat} {tables : Nat → Tables} {has : Nat → Bool}
  {fields : List FieldInfo} {sql : Str} {q : Query} {select : Select} {f : Function} {kind : AggKind}

theorem callRows_short (few : Meaning.arity f.args ≤ 1) (T : Tables) :
    ∀ args ∈ callRows m select f T, args.length ≤ 1 := by
  intro args member
  obtain ⟨row, _, rfl⟩ := List.mem_map.mp member
  rw [Meaning.evalArguments_length]
  exact few

theorem callRows_union {name : ObjectName} (source : select.source = [⟨.table name, []⟩])
    (alone : select.sourceClauses = []) (body : q.body = .select select)
    (same : SameOnShards m q select shardIds tables) (nested : f.nestedQueries ⊆ subqueries q select) :
    callRows m select f (unionTables shardIds tables) = shardIds.flatMap fun id => callRows m select f (tables id) := by
  rw [callRows, filtered_shards source alone body same, Meaning.argumentRows_flatMap]
  refine List.flatMap_congr fun id member => Meaning.argumentRows_same ?_ nested
  exact (same.filtered body member).mono (List.Subset.refl _) (List.subset_cons_self _ _)

theorem CallAlone.onlyCalls (call : CallAlone m q select f) (groupBy : select.groupBy = .expressions [])
    (known : setFunction f.name = some (setFunctionOf kind)) : m.OnlyCalls q select [f] where
  plain := call.plain
  projection := call.alone
  present := List.cons_ne_nil _ _
  groupBy := groupBy
  having := call.having
  qualify := call.qualify
  bare g member := by
    obtain rfl := List.mem_singleton.mp member
    refine ⟨call.overClause, call.clauses, ?_, call.scalar⟩
    rw [Meaning.aggregates, known]
    rfl

theorem CallAlone.cells (call : CallAlone m q select f) (groupBy : select.groupBy = .expressions [])
    (known : setFunction f.name = some (setFunctionOf kind)) (T : Tables) :
    (m.wholeRow T q select).cells = [m.aggregated f.name f.args.distinct (callRows m select f T)] :=
  (call.onlyCalls groupBy known).cells T

theorem AggregatesAlone.cells {T T' : Tables} (one : AggregatesAlone m q select f kind T)
    (groupBy : select.groupBy = .expressions []) (known : setFunction f.name = some (setFunctionOf kind))
    (fewer : callRows m select f T' ⊆ callRows m select f T) :
    (m.wholeRow T' q select).cells =
      [(setFunctionOf kind).value (Meaning.seen f.args.distinct (callRows m select f T'))] := by
  have covered := SetFunction.covers_mono one.numeric (List.map_subset _ fewer)
  rw [one.toCallAlone.cells groupBy known,
    Meaning.aggregated_value f.args.distinct known (callRows_short one.few T') covered]

section
variable {outs : Nat → List DataRow} (noWith : q.withClause = false) (body : q.body = .select select)
  (same : SameOnShards m q select shardIds tables)
  (answers : ∀ id ∈ shardIds, has id = true → m.IsAnswer (tables id) q (outs id))

include noWith body same answers

/-- If the statement keeps its one row, each shard sends one. -/
theorem keyless_shardRows (keyless : m.Keyless q select) (keeps : m.Keeps (unionTables shardIds tables) q select) :
    responseRows (shardIds.map (shardAnswers has fields outs)) =
      (shardIds.filter has).map fun id => (m.wholeRow (tables id) q select).cells := by
  rw [responseRows_shardAnswers, List.map_eq_flatMap]
  apply List.flatMap_congr
  intro id inside
  obtain ⟨member, known⟩ := List.mem_filter.mp inside
  have kept : m.Keeps (tables id) q select := by
    unfold Meaning.Keeps
    rw [same.sliced body member]
    exact keeps
  exact (keyless.isAnswer_kept noWith body kept).mp (answers id member known)

theorem keyless_noRows (keyless : m.Keyless q select) (drops : m.Drops (unionTables shardIds tables) q select) :
    responseRows (shardIds.map (shardAnswers has fields outs)) = [] := by
  rw [responseRows_shardAnswers, List.flatMap_eq_nil_iff]
  intro id inside
  obtain ⟨member, known⟩ := List.mem_filter.mp inside
  have dropped : m.Drops (tables id) q select := by
    unfold Meaning.Drops
    rw [same.sliced body member]
    exact drops
  exact (keyless.isAnswer_dropped noWith body dropped).mp (answers id member known)

end

theorem shardCells_value_iff (notAvg : kind ≠ .avg) {T : Tables}
    (union : callRows m select f T = (shardIds.map fun id => callRows m select f (tables id)).flatten) :
    (setFunctionOf kind).value (shardCells m select f shardIds tables) =
        (setFunctionOf kind).value (Meaning.seen f.args.distinct (callRows m select f T)) ↔
      RepeatsAddNothing m select f kind shardIds tables := by
  have notAvg' : setFunctionOf kind ≠ .avg := by
    cases kind <;> first | exact (notAvg rfl).elim | decide
  rw [union, shardCells, List.flatMap_def, RepeatsAddNothing, ← Meaning.value_seen_flatten_iff notAvg', List.map_map]
  rfl

theorem shardCells_present (serves : Serves m x shardIds tables has fields sql q) (body : q.body = .select select) :
    shardCells m select f shardIds tables =
      ((shardIds.filter has).map fun id => Meaning.seen f.args.distinct (callRows m select f (tables id))).flatten := by
  have absent : ∀ id ∈ shardIds, has id = false →
      Meaning.seen f.args.distinct (callRows m select f (tables id)) = [] := by
    intro id member missing
    rw [callRows, serves.filtered_missing body id member missing]
    cases f.args.distinct <;> rfl
  rw [shardCells, flatMap_present absent, List.flatMap_def]

theorem responseCell_kept (parse : Str → Option ℚ) {shardResults : List (Nat × List ClientResponse)}
    {parts : List (List Cell)} (notAvg : kind ≠ .avg) (present : parts ≠ [])
    (rows : responseRows shardResults = parts.map fun cells => [(setFunctionOf kind).value cells]) :
    responseCell (mergeScalarAggregate parse shardResults kind) =
      writtenCell ((setFunctionOf kind).value parts.flatten) := by
  have values : (responseRows shardResults).filterMap (firstCellF64 parse) =
      numbers (parts.map (setFunctionOf kind).value) := by
    rw [rows, List.filterMap_map, numbers, List.filterMap_map]
    congr 1
    funext cells
    exact firstCellF64_value parse _ _
  rw [responseCell_mergeScalarAggregate, values, mergedNumber_parts notAvg present]

theorem responseCell_dropped (parse : Str → Option ℚ) {shardResults : List (Nat × List ClientResponse)}
    (rows : responseRows shardResults = []) :
    responseCell (mergeScalarAggregate parse shardResults kind) = .null := by
  rw [responseCell_mergeScalarAggregate, rows]
  rfl

theorem writtenCell_eq_value_iff {merged value : Cell} (known : Fits merged ∨ merged = value) :
    writtenCell merged = value ↔ Fits merged ∧ merged = value := by
  rw [← writtenCell_eq_iff] at known ⊢
  rcases known with whole | equal
  · rw [whole, and_iff_right rfl]
  · rw [← equal, and_iff_left rfl]

theorem executeAggregateScan_ok {shardResults : List (Nat × List ClientResponse)} (notAvg : kind ≠ .avg)
    (sent : queryAllShards x sql = .ok shardResults) :
    executeAggregateScan x sql kind = .ok (mergeScalarAggregate x.parseF64 shardResults kind) := by
  rw [executeAggregateScan.eq_2 x sql kind notAvg, sent]
  rfl

end

/-- What the router makes of the values of an aggregate on the shards is its value over all rows, unless it does
not fit or a repeated value makes a difference under `DISTINCT`. -/
theorem aggregateScan_value_iff {m : Meaning} {x : FederatedExecutor} {query : Query} {select : Select} {f : Function}
    {kind : AggKind} {sql column table : Str} {registry : TableRegistry} {allow : Bool} {shardIds : List Nat}
    {tables : Nat → Tables} {has : Nat → Bool} {fields : List FieldInfo}
    (planned : planQuery query sql column registry allow = .ok (.aggregateScan table kind)) (notAvg : kind ≠ .avg)
    (body : query.body = .select select) (serves : Serves m x shardIds tables has fields sql query)
    (present : ∃ id ∈ shardIds, has id = true)
    (one : AggregatesAlone m query select f kind (unionTables shardIds tables))
    (same : SameOnShards m query select shardIds tables)
    (once : Fits ((setFunctionOf kind).value (shardCells m select f shardIds tables)) ∨
      RepeatsAddNothing m select f kind shardIds tables) :
    ∃ responses out, executeAggregateScan x sql kind = .ok responses ∧
      (∀ out', m.IsAnswer (unionTables shardIds tables) query out' ↔ out' = out) ∧
      (responseCell responses = onlyCell out ↔ m.Drops (unionTables shardIds tables) query select ∨
        (Fits ((setFunctionOf kind).value (shardCells m select f shardIds tables)) ∧
          RepeatsAddNothing m select f kind shardIds tables)) := by
  obtain ⟨noWith, ⟨name, source⟩, groupBy, bare⟩ := planQuery_aggregateScan planned body
  rw [one.alone] at bare
  have known := bareAggregate_one bare
  have keyless := (one.toCallAlone.onlyCalls groupBy known).keyless
  have union := callRows_union source one.sourceClauses body same (nestedQueries_of_alone one.alone)
  rw [List.flatMap_def] at union
  obtain ⟨outs, answers, sent⟩ := serves.queryAllShards
  rcases m.keeps_or_drops (unionTables shardIds tables) query select with keeps | drops
  · have rows : responseRows (shardIds.map (shardAnswers has fields outs)) = ((shardIds.filter has).map fun id =>
        Meaning.seen f.args.distinct (callRows m select f (tables id))).map fun cells =>
          [(setFunctionOf kind).value cells] := by
      rw [keyless_shardRows noWith body same answers keyless keeps, List.map_map]
      apply List.map_congr_left
      intro id inside
      apply one.cells groupBy known
      rw [union]
      exact fun args member => List.mem_flatten.mpr
        ⟨_, List.mem_map_of_mem (List.mem_filter.mp inside).1, member⟩
    have asked : shardIds.filter has ≠ [] := by
      obtain ⟨id, listed, hasTable⟩ := present
      exact List.ne_nil_of_mem (List.mem_filter.mpr ⟨listed, hasTable⟩)
    have merged := responseCell_kept x.parseF64 notAvg (List.map_eq_nil_iff.not.mpr asked) rows
    have whole := one.cells groupBy known (List.Subset.refl _)
    refine ⟨_, _, executeAggregateScan_ok notAvg sent, fun _ => keyless.isAnswer_kept noWith body keeps, ?_⟩
    rw [← shardCells_present serves body] at merged
    rw [← shardCells_value_iff notAvg union] at once ⊢
    rw [merged, whole, or_iff_right keeps.not_drops]
    exact writtenCell_eq_value_iff once
  · have rows : responseRows (shardIds.map (shardAnswers has fields outs)) = [] :=
      keyless_noRows noWith body same answers keyless drops
    refine ⟨_, _, executeAggregateScan_ok notAvg sent, fun _ => keyless.isAnswer_dropped noWith body drops, ?_⟩
    rw [responseCell_dropped x.parseF64 rows]
    exact iff_of_true rfl (.inl drops)

def callOnPrice (name : String) (distinct : Bool) : Function := callOn name.toList distinct (columnNamed "price")

def sumPrice : SelectItem := .unnamedExpr (.function (callOnPrice "sum" false))

theorem sumPrice_value : ∃ responses out,
    executeAggregateScan (tradesExecutor tradesOn sumPrice) [] .sum = .ok responses ∧
      (∀ out', Meaning.plain.IsAnswer (unionTables [0, 1] tradesOn) (selectTrades sumPrice) out' ↔ out' = out) ∧
      responseCell responses = onlyCell out := by
  have planned : planQuery (selectTrades sumPrice) [] "symbol".toList (.fromConfig []) false =
      .ok (.aggregateScan "trades".toList .sum) := by decide +kernel
  have one : AggregatesAlone Meaning.plain (selectTrades sumPrice) (tradesSelect sumPrice) (callOnPrice "sum" false)
      .sum (unionTables [0, 1] tradesOn) := by
    refine ⟨⟨rfl, rfl, rfl, rfl, rfl, rfl, rfl, ?_⟩, by decide, by decide +kernel⟩
    simp [callOnPrice, callOn, columnNamed, FunctionArguments.calls, callsOfArgs, FunctionArg.calls, Expr.calls, callsOfOption]
  have distributes : RepeatsAddNothing Meaning.plain (tradesSelect sumPrice) (callOnPrice "sum" false) .sum [0, 1]
      tradesOn := by
    intro counts
    cases counts
  have value : SetFunction.sum.value (shardCells Meaning.plain (tradesSelect sumPrice) (callOnPrice "sum" false) [0, 1]
      tradesOn) = .number 140 := by decide +kernel
  have fits : Fits (SetFunction.sum.value (shardCells Meaning.plain (tradesSelect sumPrice) (callOnPrice "sum" false)
      [0, 1] tradesOn)) := by
    intro n same
    rw [value] at same
    have whole : (140 : ℤ) = n := by exact_mod_cast Val.number.inj same
    omega
  obtain ⟨responses, out, executed, answer, claim⟩ := aggregateScan_value_iff planned (by decide) rfl
    (tradesExecutor_serves _ _ _) ⟨0, by decide, rfl⟩ one (selectTrades_same _ rfl _ _) (.inr distributes)
  exact ⟨responses, out, executed, answer, claim.mpr (.inr ⟨fits, distributes⟩)⟩

def samePriceOn : Nat → Tables
  | 0, _ => [trade "A" 10]
  | 1, _ => [trade "B" 10]
  | _, _ => []

def countDistinctPrice : SelectItem := .unnamedExpr (.function (callOnPrice "count" true))

/-- Each shard counts the price once, and the counts are added. -/
theorem distinct_counts_added :
    planQuery (selectTrades countDistinctPrice) [] "symbol".toList (.fromConfig []) false =
      .ok (.aggregateScan "trades".toList .count) ∧
    Serves Meaning.plain (tradesExecutor samePriceOn countDistinctPrice) [0, 1] samePriceOn (fun _ => true) [] []
      (selectTrades countDistinctPrice) ∧
    executeAggregateScan (tradesExecutor samePriceOn countDistinctPrice) [] .count =
      .ok [.query [] [[.number 2]]] ∧
    ∀ out, Meaning.plain.IsAnswer (unionTables [0, 1] samePriceOn) (selectTrades countDistinctPrice) out →
      onlyCell out = .number 1 := by
  have answer : (Meaning.plain.results (unionTables [0, 1] samePriceOn) (selectTrades countDistinctPrice)
      (tradesSelect countDistinctPrice)).map OutputRow.cells = [[.number 1]] := by decide +kernel
  refine ⟨by decide +kernel, tradesExecutor_serves _ _ _, by decide +kernel, ?_⟩
  intro out isAnswer
  rw [selectTrades_isAnswer, answer, List.perm_singleton] at isAnswer
  rw [isAnswer]
  rfl

end QuestRouter.Federated
