import QuestRouter.Routing.Dialect
import QuestRouter.Routing.Schema
import QuestRouter.Sql.Ast

/-!
# SQL classification

A statement is passed through, routed by a plan, or refused. The shard key is taken from the
`WHERE` clause of a single-table `SELECT`.
-/

namespace QuestRouter.Routing
open Text Sql

inductive SqlClassify where
  | routable (plan : RoutePlan)
  | passthrough
  deriving DecidableEq, Repr

def parseOneStatement (parser : SqlParser) (sql : Str) : Except SqlRouteError Statement :=
  match parser.parseSql sql with
  | .error message => .error (.parse message)
  | .ok [statement] => .ok statement
  | .ok _ => .error (.unsupported "only single-statement queries are supported".toList)

theorem parseOneStatement_ok {parser : SqlParser} {sql : Str} {statement : Statement}
    (h : parseOneStatement parser sql = .ok statement) : parser.parseSql sql = .ok [statement] := by
  unfold parseOneStatement at h
  split at h
  · cases h
  · rename_i parsed
    cases h
    exact parsed
  · cases h

def isPassthroughStatement : Statement → Bool
  | .startTransaction | .commit | .rollback | .set | .showVariable | .showVariables | .discard
  | .deallocate | .close => true
  | _ => false

structure ShardKeyMatch where
  literal : Option Str := none
  paramIndex : Option Nat := none
  deriving DecidableEq, Repr

def ShardKeyMatch.found (m : ShardKeyMatch) : Bool := m.literal.isSome || m.paramIndex.isSome

def columnMatches (expr : Expr) (column : Str) : Bool :=
  let col := toAsciiLowercase column
  match expr with
  | .identifier value => eqIgnoreAsciiCase value col
  | .compoundIdentifier parts =>
    match parts.getLast? with
    | some value => eqIgnoreAsciiCase value col
    | none => false
  | _ => false

def valueToString : Value → Option Str
  | .singleQuotedString s => some s
  | .doubleQuotedString s => some s
  | .escapedStringLiteral s => some s
  | .number n => some n
  | .boolean b => some (if b then "true" else "false").toList
  | _ => none

def placeholderIndex (placeholder : Str) : Option Nat := do
  let digits := placeholder.dropWhile fun c => c == '$' || c == ':'
  match ← parseUsize digits with
  | n + 1 => some n
  | 0 => none

def shardKeyFromExpr : Expr → ShardKeyMatch
  | .value (.placeholder p) => { paramIndex := placeholderIndex p }
  | .value v => { literal := valueToString v }
  | .identifier value => { literal := some value }
  | _ => {}

def shardKeyFromWhere (expr : Expr) (column : Str) : ShardKeyMatch :=
  match expr with
  | .binaryOp left .eq right =>
    if columnMatches left column then shardKeyFromExpr right
    else if columnMatches right column then shardKeyFromExpr left
    else {}
  | .binaryOp left .and right =>
    let leftMatch := shardKeyFromWhere left column
    if leftMatch.found then leftMatch else shardKeyFromWhere right column
  | _ => {}

def objectName (name : ObjectName) : Str :=
  ['.'].intercalate (name.map fun
    | .identifier value => value
    | .function => ['?'])

def primaryTable (select : Select) : Except SqlRouteError Str :=
  match select.source with
  | [source] =>
    if !source.joins.isEmpty then
      .error (.unsupported "joins must be handled via federated path".toList)
    else
      match source.relation with
      | .table name => .ok (objectName name)
      | .other => .error (.unsupported "only plain table references are supported in FROM".toList)
  | _ => .error (.unsupported "exactly one table in FROM is required for non-join queries".toList)

def extractGroupCols : GroupByExpr → List Str
  | .expressions exprs => exprs.filterMap fun
    | .identifier value => some value
    | .compoundIdentifier parts => parts.getLast?
    | _ => none
  | .all => []

/-- All argument forms the parser has are accepted, so only the name decides. -/
def aggKindFromFunction (name : Str) : Option AggKind :=
  let lower := toAsciiLowercase name
  if lower = "count".toList then some .count
  else if lower = "sum".toList then some .sum
  else if lower = "min".toList then some .min
  else if lower = "max".toList then some .max
  else if lower = "avg".toList then some .avg
  else none

def extractAggKinds (select : Select) : Except SqlRouteError (List AggKind) :=
  let kinds := select.projection.filterMap fun
    | .unnamedExpr (.function func) => aggKindFromFunction func.name
    | _ => none
  if kinds.isEmpty then
    .error (.unsupported "GROUP BY requires aggregate functions in SELECT".toList)
  else .ok kinds

def groupByPresent : GroupByExpr → Bool
  | .expressions exprs => !exprs.isEmpty
  | .all => true

/-- The loop over the projection, with the aggregate found so far. -/
def bareAggregate : List SelectItem → Option AggKind → Except SqlRouteError (Option AggKind)
  | [], found => .ok found
  | .unnamedExpr (.function func) :: items, found =>
    match aggKindFromFunction func.name with
    | none => .error (.unsupported "unsupported aggregate function".toList)
    | some kind =>
      if found.isSome then
        .error (.unsupported "multiple bare aggregates not supported in aggregate scan".toList)
      else bareAggregate items (some kind)
  | .wildcard :: items, found => bareAggregate items found
  | _ :: _, _ => .ok none

def detectBareAggregate (select : Select) : Except SqlRouteError (Option AggKind) :=
  if groupByPresent select.groupBy then .ok none else bareAggregate select.projection none

/-- What `planQuery` returns when no conjunct pins the shard key. -/
def planUnkeyed (query : Query) (select : Select) (table : Str) (scanAllowOrderBy : Bool) :
    Except SqlRouteError RoutePlan := do
  let groupCols := extractGroupCols select.groupBy
  if !groupCols.isEmpty then
    let aggKinds ← extractAggKinds select
    return .groupBy table groupCols aggKinds
  if let some aggKind ← detectBareAggregate select then
    return .aggregateScan table aggKind
  if !scanAllowOrderBy then
    if query.orderBy.isSome then
      throw (.unsupported "ORDER BY on full scans is not supported".toList)
    if query.limitClause.isSome || query.fetch.isSome then
      throw (.unsupported "LIMIT/OFFSET on full scans is not supported".toList)
  return .fullScan table

/-- The registry is passed in and dropped, as in the source. -/
def planQuery (query : Query) (sql shardKeyColumn : Str) (_registry : TableRegistry)
    (scanAllowOrderBy : Bool) : Except SqlRouteError RoutePlan :=
  if query.withClause then .error (.unsupported "CTEs are not supported yet".toList)
  else
    match query.body with
    | .other => .error (.unsupported "only simple SELECT queries are supported".toList)
    | .select select =>
      if select.source.any fun f => !f.joins.isEmpty then .ok (.join sql)
      else do
        let table ← primaryTable select
        let shardMatch := match select.selection with
          | some expr => shardKeyFromWhere expr shardKeyColumn
          | none => {}
        if shardMatch.found then
          return .singleShard table shardMatch.literal shardMatch.paramIndex
        planUnkeyed query select table scanAllowOrderBy

def classifySql (parser : SqlParser) (sql shardKeyColumn : Str) (registry : TableRegistry)
    (scanAllowOrderBy : Bool) : Except SqlRouteError SqlClassify :=
  if hasQuestdbExtension sql then
    (classifyQuestdbPassthrough sql shardKeyColumn).map .routable
  else do
    let statement ← parseOneStatement parser sql
    if isPassthroughStatement statement then return .passthrough
    match statement with
    | .query query => (planQuery query sql shardKeyColumn registry scanAllowOrderBy).map .routable
    | _ => throw (.unsupported "only read queries (SELECT) are routed via SQL parser".toList)

/-! ### Plans for one shard -/

/-- What a plan for one shard carries: a literal key or a parameter index, and not both. -/
def OneKey (shardKey : Option Str) (shardKeyParam : Option Nat) : Prop :=
  (∃ key, shardKey = some key ∧ shardKeyParam = none) ∨
    ∃ idx, shardKey = none ∧ shardKeyParam = some idx

theorem shardKeyFromExpr_exclusive (e : Expr) :
    (shardKeyFromExpr e).literal = none ∨ (shardKeyFromExpr e).paramIndex = none := by
  cases e with
  | value v => cases v <;> simp [shardKeyFromExpr]
  | _ => simp [shardKeyFromExpr]

theorem shardKeyFromWhere_exclusive (e : Expr) (column : Str) :
    (shardKeyFromWhere e column).literal = none ∨ (shardKeyFromWhere e column).paramIndex = none := by
  fun_induction shardKeyFromWhere e column with
  | case1 => exact shardKeyFromExpr_exclusive _
  | case2 => exact shardKeyFromExpr_exclusive _
  | case3 => exact .inl rfl
  | case4 left right leftMatch found ih => exact ih
  | case5 left right leftMatch missing left_ih right_ih => exact right_ih
  | case6 => exact .inl rfl

theorem ShardKeyMatch.oneKey {m : ShardKeyMatch} (found : m.found = true)
    (exclusive : m.literal = none ∨ m.paramIndex = none) : OneKey m.literal m.paramIndex := by
  obtain ⟨literal, index⟩ := m
  cases literal <;> cases index <;> simp_all [OneKey, ShardKeyMatch.found]

theorem planUnkeyed_not_single {query : Query} {select : Select} {table t : Str} {allow : Bool}
    {shardKey : Option Str} {shardKeyParam : Option Nat} :
    planUnkeyed query select table allow ≠ .ok (.singleShard t shardKey shardKeyParam) := by
  intro h
  simp only [planUnkeyed, bind, Except.bind, pure, Except.pure, throw, throwThe, MonadExceptOf.throw] at h
  repeat' split at h
  all_goals cases h

theorem planQuery_single {query : Query} {sql column table : Str} {registry : TableRegistry}
    {allow : Bool} {shardKey : Option Str} {shardKeyParam : Option Nat}
    (h : planQuery query sql column registry allow = .ok (.singleShard table shardKey shardKeyParam)) :
    query.withClause = false ∧ ∃ select e, query.body = .select select ∧ primaryTable select = .ok table ∧
      select.selection = some e ∧ (shardKeyFromWhere e column).found = true ∧
      shardKey = (shardKeyFromWhere e column).literal ∧
      shardKeyParam = (shardKeyFromWhere e column).paramIndex := by
  unfold planQuery at h
  split at h
  · cases h
  rename_i noWith
  refine ⟨by simpa using noWith, ?_⟩
  split at h
  · cases h
  rename_i select body
  split at h
  · cases h
  cases primary : primaryTable select with
  | error e => simp [primary, bind, Except.bind] at h
  | ok name =>
    cases condition : select.selection with
    | none =>
      simp [primary, condition, bind, Except.bind, ShardKeyMatch.found] at h
      exact (planUnkeyed_not_single h).elim
    | some e =>
      simp only [primary, condition, bind, Except.bind] at h
      split at h
      · rename_i found
        cases h
        exact ⟨select, e, body, primary, condition, found, rfl, rfl⟩
      · exact (planUnkeyed_not_single h).elim

theorem planQuery_unkeyed {query : Query} {sql column : Str} {registry : TableRegistry} {allow : Bool}
    {plan : RoutePlan} (h : planQuery query sql column registry allow = .ok plan)
    (notJoin : plan ≠ .join sql) (notSingle : ∀ t k p, plan ≠ .singleShard t k p) :
    query.withClause = false ∧ ∃ select table, query.body = .select select ∧
      primaryTable select = .ok table ∧ planUnkeyed query select table allow = .ok plan := by
  unfold planQuery at h
  split at h
  · cases h
  rename_i noWith
  refine ⟨by simpa using noWith, ?_⟩
  split at h
  · cases h
  rename_i select body
  split at h
  · exact (notJoin (Except.ok.inj h).symm).elim
  cases primary : primaryTable select with
  | error e => simp [primary, bind, Except.bind] at h
  | ok table =>
    simp only [primary, bind, Except.bind] at h
    refine ⟨select, table, body, primary, ?_⟩
    cases condition : select.selection with
    | none =>
      simp only [condition] at h
      exact h
    | some e =>
      simp only [condition] at h
      split at h
      · exact (notSingle _ _ _ (Except.ok.inj h).symm).elim
      · exact h

/-- A query that is not for a join reads one table, which is not joined. -/
theorem primaryTable_source {select : Select} {table : Str} (primary : primaryTable select = .ok table) :
    ∃ name, select.source = [⟨.table name, []⟩] ∧ objectName name = table := by
  unfold primaryTable at primary
  split at primary
  · rename_i source one
    split at primary
    · cases primary
    rename_i joins
    split at primary
    · rename_i name relation
      obtain ⟨_, joined⟩ := source
      obtain rfl : joined = [] := by simpa using joins
      cases relation
      exact ⟨name, one, Except.ok.inj primary⟩
    · cases primary
  · cases primary

theorem groupByPresent_false {groupBy : GroupByExpr} (h : groupByPresent groupBy = false) :
    groupBy = .expressions [] := by
  cases groupBy with
  | all => cases h
  | expressions exprs =>
    cases exprs with
    | nil => rfl
    | cons e es => cases h

theorem detectBareAggregate_some {select : Select} {kind : AggKind}
    (h : detectBareAggregate select = .ok (some kind)) :
    select.groupBy = .expressions [] ∧ bareAggregate select.projection none = .ok (some kind) := by
  unfold detectBareAggregate at h
  split at h
  · cases h
  · rename_i ungrouped
    exact ⟨groupByPresent_false (by simpa using ungrouped), h⟩

theorem planUnkeyed_aggregateScan {query : Query} {select : Select} {table t : Str} {allow : Bool}
    {kind : AggKind} (h : planUnkeyed query select table allow = .ok (.aggregateScan t kind)) :
    select.groupBy = .expressions [] ∧ bareAggregate select.projection none = .ok (some kind) := by
  apply detectBareAggregate_some
  simp only [planUnkeyed, bind, Except.bind, pure, Except.pure, throw, throwThe, MonadExceptOf.throw] at h
  split at h
  · split at h <;> cases h
  cases detected : detectBareAggregate select with
  | error e => simp only [detected, reduceCtorEq] at h
  | ok found =>
    simp only [detected] at h
    cases found with
    | some k =>
      cases h
      rfl
    | none =>
      repeat' split at h
      all_goals first | contradiction | cases h

theorem classifyQuestdbPassthrough_oneKey {sql column : Str} {plan : RoutePlan}
    (h : classifyQuestdbPassthrough sql column = .ok plan) :
    ∃ table shardKey shardKeyParam, plan = .singleShard table shardKey shardKeyParam ∧
      OneKey shardKey shardKeyParam := by
  unfold classifyQuestdbPassthrough at h
  split at h
  · cases h
  split at h
  · cases h
    exact ⟨_, _, _, rfl, .inl ⟨_, rfl, rfl⟩⟩
  split at h
  · cases h
    exact ⟨_, _, _, rfl, .inr ⟨_, rfl, rfl⟩⟩
  · cases h

theorem Except.map_ok {ε α β : Type} {f : α → β} {x : Except ε α} {b : β} :
    x.map f = .ok b ↔ ∃ a, x = .ok a ∧ f a = b := by
  cases x <;> simp [Except.map]

theorem classifySql_routable {parser : SqlParser} {sql column : Str} {registry : TableRegistry}
    {allow : Bool} {plan : RoutePlan}
    (h : classifySql parser sql column registry allow = .ok (.routable plan)) :
    (hasQuestdbExtension sql = true ∧ classifyQuestdbPassthrough sql column = .ok plan) ∨
      (hasQuestdbExtension sql = false ∧ ∃ query, parseOneStatement parser sql = .ok (.query query) ∧
        planQuery query sql column registry allow = .ok plan) := by
  unfold classifySql at h
  split at h
  · rename_i extension
    obtain ⟨_, classified, ⟨⟩⟩ := Except.map_ok.mp h
    exact .inl ⟨extension, classified⟩
  · rename_i plain
    refine .inr ⟨by simpa using plain, ?_⟩
    cases parsed : parseOneStatement parser sql with
    | error e => simp [parsed, bind, Except.bind] at h
    | ok statement =>
      simp only [parsed, bind, Except.bind] at h
      split at h
      · cases h
      split at h
      · obtain ⟨_, planned, ⟨⟩⟩ := Except.map_ok.mp h
        exact ⟨_, rfl, planned⟩
      · cases h

theorem classifySql_oneKey {parser : SqlParser} {sql column table : Str} {registry : TableRegistry}
    {allow : Bool} {shardKey : Option Str} {shardKeyParam : Option Nat}
    (h : classifySql parser sql column registry allow =
      .ok (.routable (.singleShard table shardKey shardKeyParam))) : OneKey shardKey shardKeyParam := by
  rcases classifySql_routable h with ⟨_, classified⟩ | ⟨_, query, _, planned⟩
  · obtain ⟨_, _, _, ⟨⟩, one⟩ := classifyQuestdbPassthrough_oneKey classified
    exact one
  · obtain ⟨_, _, e, _, _, _, found, rfl, rfl⟩ := planQuery_single planned
    exact ShardKeyMatch.oneKey found (shardKeyFromWhere_exclusive e column)

end QuestRouter.Routing
