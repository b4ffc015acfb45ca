import QuestRouter.Sql.Meaning

/-!
# Answers of a query

What a `SELECT` may answer: the rows that satisfy its condition are grouped if it aggregates, each row or
group gives a row of cells, and these are ordered, made distinct and cut. A query has more than one answer
where it leaves the order open.
-/

namespace QuestRouter.Sql
open Text

def SelectItem.expr : SelectItem → Option Expr
  | .unnamedExpr e => some e
  | .exprWithAlias e _ => some e
  | _ => none

def GroupByExpr.exprs : GroupByExpr → List Expr
  | .expressions es => es
  | .all => []

def Select.distinctOn (select : Select) : List Expr :=
  match select.distinct with
  | some (.on es) => es
  | _ => []

def Fetch.exprs (fetch : Fetch) : List Expr := fetch.quantity.toList

def LimitClause.exprs : LimitClause → List Expr
  | .limitOffset limit offset => limit.toList ++ offset.toList
  | .offsetCommaLimit offset limit => [offset, limit]

def orderExprs (q : Query) : List Expr := (q.orderBy.getD []).map (·.expr)

/-- What says how many rows there are. -/
def cutExprs (q : Query) (select : Select) : List Expr :=
  select.top.toList.flatMap Fetch.exprs ++
    (q.limitClause.toList.flatMap LimitClause.exprs ++ q.fetch.toList.flatMap Fetch.exprs)

def queryExprs (q : Query) (select : Select) : List Expr :=
  select.projection.filterMap SelectItem.expr ++ (select.selection.toList ++ (select.groupBy.exprs ++
    (select.having.toList ++ (select.qualify.toList ++ (select.distinctOn ++ (orderExprs q ++ (cutExprs q select ++
      (q.limitBy ++ (select.sourceClauses ++ (select.clauses ++ q.clauses)).flatMap Clause.exprs))))))))

def subqueries (q : Query) (select : Select) : List Query := (queryExprs q select).flatMap Expr.nestedQueries

def Expr.isGroupingSets : Expr → Bool
  | .groupingSets _ _ => true
  | _ => false

/-- The rows are returned, and every clause is one that is told apart. -/
def isPlain (q : Query) (select : Select) : Bool :=
  select.into.isNone && select.groupByModifiers.isEmpty && select.groupBy.exprs.all (!·.isGroupingSets) &&
    select.clauses.isEmpty && q.limitBy.isEmpty && q.clauses.isEmpty

/-- Every table with the rows it has on these shards. -/
def unionTables (ids : List Nat) (tables : Nat → Tables) : Tables :=
  fun name => ids.flatMap fun id => tables id name

namespace Meaning
variable (m : Meaning)

def sourceRows (tables : Tables) (select : Select) : List Record :=
  match select.source, select.sourceClauses with
  | [⟨.table name, []⟩], [] => tables name
  | source, clauses => m.joined source clauses tables

def filtered (tables : Tables) (select : Select) : List Record :=
  (m.sourceRows tables select).filter fun row => m.passes select.selection ⟨tables, [], [], row⟩

/-! ### Keys -/

/-- The items, with the columns that `*` stands for. -/
def outputs (select : Select) : List Expr :=
  select.projection.flatMap fun item =>
    match item.expr with
    | some e => [e]
    | none => (m.columns select.source).map .identifier

def aliased (select : Select) (x : Str) : Option Expr :=
  select.projection.findSome? fun
    | .exprWithAlias e name => if eqIgnoreAsciiCase name x then some e else none
    | _ => none

/-- A number is the place of an item, and a name may be that of an item. -/
def sortKey (select : Select) (e : Expr) : Expr :=
  match e with
  | .value (.number text) =>
    match parseUsize text with
    | some (i + 1) => (m.outputs select)[i]?.getD e
    | _ => e
  | .identifier x => (aliased select x).getD e
  | _ => e

/-- As for an order, but that a column of the table comes before an item of its name. -/
def groupKey (select : Select) (e : Expr) : Expr :=
  match e with
  | .identifier x => if (m.columns select.source).any (eqIgnoreAsciiCase x) then e else m.sortKey select e
  | _ => m.sortKey select e

def sortKeys (q : Query) (select : Select) : List Expr := (orderExprs q).map (m.sortKey select)

def distinctKeys (select : Select) : List Expr := select.distinctOn.map (m.sortKey select)

/-! ### Groups -/

/-- An aggregate is called in the expression, which is not a window function. -/
def hasAggregate (e : Expr) : Bool := e.calls.any fun f => f.overClause.isNone && m.aggregates f.name

/-- What is evaluated in the groups. -/
def resultExprs (q : Query) (select : Select) : List Expr :=
  select.projection.filterMap SelectItem.expr ++ (select.qualify.toList ++ (m.distinctKeys select ++ m.sortKeys q select))

def isGrouped (q : Query) (select : Select) : Bool :=
  (match select.groupBy with
    | .expressions [] => false
    | _ => true) ||
  select.having.isSome || (m.resultExprs q select).any m.hasAggregate

/-- The keys that are given, or else the items that do not aggregate. -/
def groupKeys (select : Select) : List Expr :=
  match select.groupBy with
  | .expressions (e :: es) => (e :: es).map (m.groupKey select)
  | _ => (m.outputs select).filter (!m.hasAggregate ·)

def groups (keys : List Expr) (tables : Tables) (rows : List Record) : List (List Record) :=
  if keys.isEmpty then [rows]
  else
    let key row := m.evalAll keys ⟨tables, [], [], row⟩
    (rows.map key).dedup.map fun k => rows.filter fun row => key row = k

/-- The groups that the query has a row for, or each row by itself. -/
def keptGroups (tables : Tables) (q : Query) (select : Select) : List (List Record) :=
  if m.isGrouped q select then
    (m.groups (m.groupKeys select) tables (m.filtered tables select)).filter fun group =>
      m.passes select.having ⟨tables, [], group, group.headD nullRecord⟩
  else (m.filtered tables select).map ([·])

/-- Where the items are evaluated: once for a group, or once for a row. -/
def scopes (tables : Tables) (q : Query) (select : Select) : List Scope :=
  let groups := m.keptGroups tables q select
  (groups.map fun group => ⟨tables, groups, group, group.headD nullRecord⟩).filter (m.passes select.qualify)

/-! ### Results -/

def itemCells (source : List TableWithJoins) (s : Scope) (item : SelectItem) : List Cell :=
  match item.expr with
  | some e => [m.eval e s]
  | none => (m.columns source).map s.row.column

def outputCells (select : Select) (s : Scope) : List Cell :=
  select.projection.flatMap (m.itemCells select.source s)

def resultRow (q : Query) (select : Select) (s : Scope) : OutputRow where
  keys := m.evalAll (m.sortKeys q select) s
  apart :=
    match select.distinct with
    | some (.on _) => m.evalAll (m.distinctKeys select) s
    | _ => m.outputCells select s
  cells := m.outputCells select s

def results (tables : Tables) (q : Query) (select : Select) : List OutputRow :=
  (m.scopes tables q select).map (m.resultRow q select)

/-- The first row of those that are not told apart. -/
def distinctRows (select : Select) (rows : List OutputRow) : List OutputRow :=
  if select.distinct.isSome then rows.eraseDupsBy fun a b => a.apart == b.apart else rows

open Classical in
/-- Rows that the order does not tell from the last. -/
noncomputable def tiedWith (q : Query) (last : Option OutputRow) (rows : List OutputRow) : List OutputRow :=
  match last, q.orderBy with
  | some last, some keys => rows.takeWhile fun row => m.precedes keys row last
  | _, _ => []

def withTies (q : Query) (select : Select) : Bool := select.top.any (·.withTies) || q.fetch.any (·.withTies)

noncomputable def sliced (tables : Tables) (q : Query) (select : Select) (rows : List OutputRow) : List OutputRow :=
  match select.top, q.limitClause, q.fetch with
  | none, none, none => rows
  | top, limit, fetch =>
    let cut := m.slice top limit fetch (m.evalAll (cutExprs q select) ⟨tables, [], [], nullRecord⟩) rows.length
    let rest := rows.drop cut.1
    let kept := rest.take cut.2
    if withTies q select then kept ++ m.tiedWith q kept.getLast? (rest.drop cut.2) else kept

def IsAnswer (tables : Tables) (q : Query) (out : Answer) : Prop :=
  match q.withClause, q.body with
  | false, .select select =>
    if isPlain q select then
      ∃ sorted : List OutputRow, sorted.Perm (m.results tables q select) ∧
        (∀ keys, q.orderBy = some keys → sorted.Pairwise (m.precedes keys)) ∧
        out = (m.sliced tables q select (distinctRows select sorted)).map OutputRow.cells
    else
      m.special q (m.filtered tables select)
        ((nullRecord :: m.filtered tables select).map (m.answers (subqueries q select) tables)) out
  | _, _ => out = m.nested q tables nullRecord

/-! ### Conditions -/

def env (s : Scope) : Env ℚ where
  numeral := m.numeral
  column := s.row.column
  bound := m.bound
  rest e := m.eval e s
  column_congr := s.row.column_congr

theorem env_eval (s : Scope) : ∀ e : Expr, (m.env s).eval e = m.eval e s
  | .identifier x => by rw [eval]; rfl
  | .compoundIdentifier parts => by rw [eval]; rfl
  | .value v => by
    rw [eval]
    cases v with
    | placeholder p =>
      have rest : (m.env s).rest (.value (.placeholder p)) = m.literal (.placeholder p) := by
        show m.eval (.value (.placeholder p)) s = _
        rw [eval]
      rw [Env.eval, Env.literal, rest, literal]
      rcases placeholderNumber p with _ | _ | i <;> rfl
    | other text =>
      show m.eval (.value (.other text)) s = _
      rw [eval]
    | _ => rfl
  | .binaryOp l op r => by
    have left := env_eval s l
    have right := env_eval s r
    cases op with
    | other symbol => rfl
    | _ => rw [eval, Env.eval, left, right]
  | .not e => by rw [eval, Env.eval, env_eval s e]
  | .nested e => by rw [eval, Env.eval, env_eval s e]
  | .isNull e => by rw [eval, Env.eval, env_eval s e]
  | .function f => rfl
  | .subquery q => rfl
  | .exists q negated => rfl
  | .inSubquery e q negated => rfl
  | .groupingSets text operands => rfl
  | .other text operands => rfl

theorem passes_some {e : Expr} {s : Scope} : m.passes (some e) s = true ↔ (m.env s).Holds e := by
  rw [passes, decide_eq_true_iff, Env.Holds, env_eval]

/-! ### What an answer depends on -/

/-- The rows that an expression is evaluated on. -/
structure Within (rows : List Record) (s : Scope) : Prop where
  row : s.row ∈ rows
  group : s.group ⊆ rows
  groups : s.groups.flatten ⊆ rows

def onTables (s : Scope) (tables : Tables) : Scope := { s with tables }

theorem within_row {rows : List Record} {tables : Tables} {row : Record} (member : row ∈ rows) :
    Within rows ⟨tables, [], [], row⟩ := ⟨member, List.nil_subset _, List.nil_subset _⟩

variable {m}

theorem evalAll_eq {es : List Expr} {s t : Scope} (each : ∀ e ∈ es, m.eval e t = m.eval e s) :
    m.evalAll es t = m.evalAll es s := by
  induction es with
  | nil => rw [evalAll, evalAll]
  | cons e es ih =>
    rw [evalAll, evalAll, each e List.mem_cons_self, ih fun e' inside => each e' (List.mem_cons_of_mem _ inside)]

section
variable {queries : List Query} {rows : List Record} {tables tables' : Tables} {s : Scope}
  (same : m.SameOn queries rows tables tables') (within : Within rows s) (here : s.tables = tables)

include same within here

theorem alike_of_same {e : Expr} (member : e.nestedQueries ⊆ queries) :
    m.Alike e.nestedQueries e.calls s (onTables s tables') := by
  subst here
  refine ⟨rfl, same.mono member ?_, .inl ⟨rfl, same.mono member within.group⟩, .inl ⟨rfl, same.mono member within.groups⟩⟩
  exact List.cons_subset.mpr ⟨within.row, List.nil_subset _⟩

theorem evalAll_same {es : List Expr} (members : ∀ e ∈ es, e.nestedQueries ⊆ queries) :
    m.evalAll es (onTables s tables') = m.evalAll es s :=
  evalAll_eq fun e member => eval_congr e (alike_of_same same within here (members e member))

theorem passes_same {e : Option Expr} (member : ∀ e' ∈ e, e'.nestedQueries ⊆ queries) :
    m.passes e (onTables s tables') = m.passes e s := by
  cases e with
  | none => rw [passes, passes]
  | some e => rw [passes, passes, eval_congr e (alike_of_same same within here (member e rfl))]

end

theorem subqueries_of_mem {q : Query} {select : Select} {e : Expr} (member : e ∈ queryExprs q select) :
    e.nestedQueries ⊆ subqueries q select :=
  fun _ inside => List.mem_flatMap.mpr ⟨e, member, inside⟩

/-! ### The queries nested in what is evaluated -/

section
variable {q : Query} {select : Select}

theorem item_members {item : SelectItem} {e : Expr} (listed : item ∈ select.projection) (found : item.expr = some e) :
    e.nestedQueries ⊆ subqueries q select :=
  subqueries_of_mem (List.mem_append_left _ (List.mem_filterMap.mpr ⟨item, listed, found⟩))

theorem outputs_members : ∀ e ∈ m.outputs select, e.nestedQueries ⊆ subqueries q select := by
  intro e member
  obtain ⟨item, listed, inside⟩ := List.mem_flatMap.mp member
  cases found : item.expr with
  | some e' =>
    rw [found] at inside
    obtain rfl := List.mem_singleton.mp inside
    exact item_members listed found
  | none =>
    rw [found] at inside
    obtain ⟨column, _, rfl⟩ := List.mem_map.mp inside
    exact List.nil_subset _

theorem aliased_members {x : Str} {e : Expr} (found : aliased select x = some e) :
    e.nestedQueries ⊆ subqueries q select := by
  obtain ⟨item, listed, named⟩ := List.exists_of_findSome?_eq_some found
  cases item with
  | exprWithAlias e' name =>
    dsimp only at named
    split at named
    · obtain rfl := Option.some.inj named
      exact item_members listed rfl
    · cases named
  | _ => cases named

theorem sortKey_members {e : Expr} (member : e.nestedQueries ⊆ subqueries q select) :
    (m.sortKey select e).nestedQueries ⊆ subqueries q select := by
  unfold sortKey
  split
  · split
    · rename_i i _
      cases placed : (m.outputs select)[i]? with
      | some e' => exact outputs_members e' (List.mem_of_getElem? placed)
      | none => exact member
    · exact member
  · rename_i x
    cases found : aliased select x with
    | some e' => exact aliased_members found
    | none => exact member
  · exact member

theorem groupKey_members {e : Expr} (member : e.nestedQueries ⊆ subqueries q select) :
    (m.groupKey select e).nestedQueries ⊆ subqueries q select := by
  unfold groupKey
  split
  · split
    · exact member
    · exact sortKey_members member
  · exact sortKey_members member

theorem groupKeys_members : ∀ e ∈ m.groupKeys select, e.nestedQueries ⊆ subqueries q select := by
  intro e member
  unfold groupKeys at member
  split at member
  · rename_i first rest keys
    obtain ⟨e', given, rfl⟩ := List.mem_map.mp member
    apply groupKey_members
    apply subqueries_of_mem
    simp only [queryExprs, keys, GroupByExpr.exprs, List.mem_append]
    exact .inr (.inr (.inl given))
  · exact outputs_members e (List.mem_of_mem_filter member)

theorem sortKeys_members : ∀ e ∈ m.sortKeys q select, e.nestedQueries ⊆ subqueries q select := by
  intro e member
  obtain ⟨e', given, rfl⟩ := List.mem_map.mp member
  apply sortKey_members
  apply subqueries_of_mem
  simp [queryExprs, given]

theorem distinctKeys_members : ∀ e ∈ m.distinctKeys select, e.nestedQueries ⊆ subqueries q select := by
  intro e member
  obtain ⟨e', given, rfl⟩ := List.mem_map.mp member
  apply sortKey_members
  apply subqueries_of_mem
  simp [queryExprs, given]

theorem selection_members : ∀ e ∈ select.selection, e.nestedQueries ⊆ subqueries q select := by
  intro e given
  apply subqueries_of_mem
  simp [queryExprs, Option.mem_def.mp given]

theorem having_members : ∀ e ∈ select.having, e.nestedQueries ⊆ subqueries q select := by
  intro e given
  apply subqueries_of_mem
  simp [queryExprs, Option.mem_def.mp given]

theorem qualify_members : ∀ e ∈ select.qualify, e.nestedQueries ⊆ subqueries q select := by
  intro e given
  apply subqueries_of_mem
  simp [queryExprs, Option.mem_def.mp given]

theorem cutExprs_members : ∀ e ∈ cutExprs q select, e.nestedQueries ⊆ subqueries q select := by
  intro e given
  apply subqueries_of_mem
  simp [queryExprs, given]

end

/-! ### Groups of the same rows -/

theorem groups_subset {keys : List Expr} {tables : Tables} {rows group : List Record}
    (member : group ∈ m.groups keys tables rows) : group ⊆ rows := by
  unfold groups at member
  split at member
  · rw [List.mem_singleton.mp member]
    exact List.Subset.refl _
  · obtain ⟨_, _, rfl⟩ := List.mem_map.mp member
    exact List.filter_subset_self _

theorem headD_mem {rows group : List Record} (inside : group ⊆ rows) :
    group.headD nullRecord ∈ nullRecord :: rows := by
  cases group with
  | nil => exact List.mem_cons_self
  | cons row group => exact List.mem_cons_of_mem _ (inside List.mem_cons_self)

theorem keptGroups_subset {tables : Tables} {q : Query} {select : Select} {group : List Record}
    (member : group ∈ m.keptGroups tables q select) : group ⊆ m.filtered tables select := by
  unfold keptGroups at member
  split at member
  · exact groups_subset (List.mem_of_mem_filter member)
  · obtain ⟨row, inside, rfl⟩ := List.mem_map.mp member
    exact List.cons_subset.mpr ⟨inside, List.nil_subset _⟩

theorem within_group {tables : Tables} {q : Query} {select : Select} {group : List Record}
    (member : group ∈ m.keptGroups tables q select) :
    Within (nullRecord :: m.filtered tables select)
      ⟨tables, m.keptGroups tables q select, group, group.headD nullRecord⟩ where
  row := headD_mem (keptGroups_subset member)
  group := List.Subset.trans (keptGroups_subset member) (List.subset_cons_self _ _)
  groups := by
    intro row inside
    obtain ⟨other, kept, among⟩ := List.mem_flatten.mp inside
    exact List.mem_cons_of_mem _ (keptGroups_subset kept among)

theorem scopes_within {tables : Tables} {q : Query} {select : Select} {s : Scope}
    (member : s ∈ m.scopes tables q select) :
    s.tables = tables ∧ Within (nullRecord :: m.filtered tables select) s := by
  obtain ⟨group, kept, rfl⟩ := List.mem_map.mp (List.mem_of_mem_filter member)
  exact ⟨rfl, within_group kept⟩

section
variable {q : Query} {select : Select} {tables tables' : Tables}
  (same : m.SameOn (subqueries q select) (nullRecord :: m.filtered tables select) tables tables')

include same

theorem groups_same : m.groups (m.groupKeys select) tables' (m.filtered tables select) =
    m.groups (m.groupKeys select) tables (m.filtered tables select) := by
  have keys : ∀ row ∈ m.filtered tables select, m.evalAll (m.groupKeys select) ⟨tables', [], [], row⟩ =
      m.evalAll (m.groupKeys select) ⟨tables, [], [], row⟩ :=
    fun row member => evalAll_same same (within_row (List.mem_cons_of_mem _ member)) rfl groupKeys_members
  unfold groups
  dsimp only
  split
  · rfl
  · rw [List.map_congr_left keys]
    apply List.map_congr_left
    intro k _
    exact List.filter_congr fun row member => by simp only [keys row member]

theorem keptGroups_same (rows : m.filtered tables' select = m.filtered tables select) :
    m.keptGroups tables' q select = m.keptGroups tables q select := by
  unfold keptGroups
  rw [rows]
  split
  · rw [groups_same same]
    apply List.filter_congr
    intro group member
    have inside := groups_subset member
    refine passes_same (s := ⟨tables, [], group, group.headD nullRecord⟩) same ?_ rfl having_members
    exact ⟨headD_mem inside, List.Subset.trans inside (List.subset_cons_self _ _), List.nil_subset _⟩
  · rfl

theorem scopes_same (rows : m.filtered tables' select = m.filtered tables select) :
    m.scopes tables' q select = (m.scopes tables q select).map (onTables · tables') := by
  have qualified : ∀ group ∈ m.keptGroups tables q select,
      m.passes select.qualify ⟨tables', m.keptGroups tables q select, group, group.headD nullRecord⟩ =
        m.passes select.qualify ⟨tables, m.keptGroups tables q select, group, group.headD nullRecord⟩ :=
    fun group member => passes_same same (within_group member) rfl qualify_members
  unfold scopes
  dsimp only
  rw [keptGroups_same same rows, List.filter_map, List.filter_map, List.map_map]
  congr 1
  exact List.filter_congr qualified

theorem outputCells_same {s : Scope} (within : Within (nullRecord :: m.filtered tables select) s)
    (here : s.tables = tables) : m.outputCells select (onTables s tables') = m.outputCells select s := by
  apply List.flatMap_congr
  intro item listed
  unfold itemCells
  split
  · rename_i e found
    rw [eval_congr e (alike_of_same same within here (item_members listed found))]
  · rfl

theorem resultRow_same {s : Scope} (within : Within (nullRecord :: m.filtered tables select) s)
    (here : s.tables = tables) : m.resultRow q select (onTables s tables') = m.resultRow q select s := by
  have keys := evalAll_same same within here (m.sortKeys_members (q := q))
  have apart := evalAll_same same within here (m.distinctKeys_members (q := q))
  rw [resultRow, resultRow, keys, apart, outputCells_same same within here]

/-- A query has the same results from tables that give it the same rows and its nested queries the same
answers on them. -/
theorem results_same (rows : m.filtered tables' select = m.filtered tables select) :
    m.results tables' q select = m.results tables q select := by
  rw [results, results, scopes_same same rows, List.map_map]
  apply List.map_congr_left
  intro s member
  obtain ⟨here, within⟩ := scopes_within member
  exact resultRow_same same within here

theorem sliced_same : m.sliced tables' q select = m.sliced tables q select := by
  have cells : m.evalAll (cutExprs q select) ⟨tables', [], [], nullRecord⟩ =
      m.evalAll (cutExprs q select) ⟨tables, [], [], nullRecord⟩ :=
    evalAll_same same (within_row List.mem_cons_self) rfl cutExprs_members
  funext rows
  rw [sliced, sliced, cells]

theorem isAnswer_same (noWith : q.withClause = false) (body : q.body = .select select)
    (rows : m.filtered tables' select = m.filtered tables select) {out : Answer} :
    m.IsAnswer tables' q out ↔ m.IsAnswer tables q out := by
  unfold IsAnswer
  rw [noWith, body]
  dsimp only
  rw [results_same same rows, sliced_same same, rows, same.answers]

end

theorem isAnswer_select {q : Query} {select : Select} (noWith : q.withClause = false)
    (body : q.body = .select select) (plain : isPlain q select = true) {tables : Tables} {out : Answer} :
    m.IsAnswer tables q out ↔ ∃ sorted : List OutputRow, sorted.Perm (m.results tables q select) ∧
      (∀ keys, q.orderBy = some keys → sorted.Pairwise (m.precedes keys)) ∧
      out = (m.sliced tables q select (distinctRows select sorted)).map OutputRow.cells := by
  rw [IsAnswer, noWith, body]
  dsimp only
  rw [if_pos plain]

/-- The query has neither an order nor a number of rows. -/
structure Unordered (q : Query) (select : Select) : Prop where
  orderBy : q.orderBy = none
  top : select.top = none
  limitClause : q.limitClause = none
  fetch : q.fetch = none

/-- Without an order and a limit, an answer is made of the rows in any order. -/
theorem isAnswer_unordered {q : Query} {select : Select} (noWith : q.withClause = false)
    (body : q.body = .select select) (plain : isPlain q select = true) (unordered : Unordered q select)
    {tables : Tables} {out : Answer} :
    m.IsAnswer tables q out ↔ ∃ sorted : List OutputRow, sorted.Perm (m.results tables q select) ∧
      out = (distinctRows select sorted).map OutputRow.cells := by
  have whole : ∀ rows, m.sliced tables q select rows = rows := by
    intro rows
    rw [sliced, unordered.top, unordered.limitClause, unordered.fetch]
  rw [isAnswer_select noWith body plain]
  simp only [unordered.orderBy, whole, reduceCtorEq, false_implies, implies_true, true_and]

theorem isAnswer_rows {q : Query} {select : Select} (noWith : q.withClause = false)
    (body : q.body = .select select) (plain : isPlain q select = true) (unordered : Unordered q select)
    (all : select.distinct = none) {tables : Tables} {out : Answer} :
    m.IsAnswer tables q out ↔ out.Perm ((m.results tables q select).map OutputRow.cells) := by
  have every : ∀ rows, distinctRows select rows = rows := by
    intro rows
    rw [distinctRows, all]
    rfl
  simp only [isAnswer_unordered noWith body plain unordered, every]
  constructor
  · rintro ⟨sorted, perm, rfl⟩
    exact perm.map OutputRow.cells
  · intro perm
    obtain ⟨sorted, rfl, permuted⟩ : Relation.Comp (· = List.map OutputRow.cells ·) List.Perm out _ := by
      rw [List.eq_map_comp_perm]
      exact perm
    exact ⟨sorted, permuted, rfl⟩

/-! ### A small reading -/

/-- Whole numbers, `>` on numbers, no other functions, and no nested queries. -/
def flat : Meaning where
  numeral text := (parseUsize text).getD 0
  bound _ := .null
  operator
    | ['>'], [.number a, .number b], _ => .boolean (decide (b < a))
    | _, _, _ => .null
  scalar _ _ _ := .null
  isAggregate _ := false
  aggregate _ _ := .null
  clausal _ _ _ _ := .null
  window _ _ _ _ _ := .null
  nested _ _ _ := []
  columns _ := ["symbol".toList, "price".toList]
  joined _ _ _ := []
  precedes _ _ _ := True
  slice _ _ _ _ rows := (0, rows)
  special _ _ _ _ := False

/-- A nested query has the rows that it has by itself. -/
def plain : Meaning :=
  { flat with nested := fun q tables _ => match q.body with
      | .select select => (distinctRows select (flat.results tables q select)).map OutputRow.cells
      | .other => [] }

end Meaning

theorem eqIgnoreAsciiCase_right {x y z : Str} (same : eqIgnoreAsciiCase x y = true) :
    eqIgnoreAsciiCase x z = eqIgnoreAsciiCase y z := by
  rw [Bool.eq_iff_iff]
  exact ⟨fun h => eqIgnoreAsciiCase_trans (by rwa [eqIgnoreAsciiCase_comm]) h,
    fun h => eqIgnoreAsciiCase_trans same h⟩

def plainRecord (symbol : Str) (price : Cell) : Record where
  column x :=
    if eqIgnoreAsciiCase x "symbol".toList then .text symbol
    else if eqIgnoreAsciiCase x "price".toList then price
    else .null
  column_congr same := by rw [eqIgnoreAsciiCase_right same, eqIgnoreAsciiCase_right same]

end QuestRouter.Sql
