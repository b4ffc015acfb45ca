import QuestRouter.Sql.Eval
import QuestRouter.Sql.SetFunction

/-!
# Meaning of an expression

The cell that an expression has in a row of a table, or in a group of rows where it aggregates. Equality,
the connectives, names, literals and the set functions are read as SQL reads them. What operators, other
functions and nested queries mean is given by a `Meaning`, so a result holds whatever they mean.
-/

namespace QuestRouter.Sql
open Text

/-- A row of a table, with its columns found by name ignoring ASCII case. -/
structure Record where
  column : Str → Cell
  column_congr : ∀ {x y}, eqIgnoreAsciiCase x y = true → column x = column y

def nullRecord : Record := ⟨fun _ => .null, fun _ => rfl⟩

abbrev Tables := ObjectName → List Record

/-- Where an expression is evaluated: in a row, and for a function that looks at more than a row, in its
group, and among the groups of the query. -/
structure Scope where
  tables : Tables
  groups : List (List Record)
  group : List Record
  row : Record

abbrev Answer := List (List Cell)

/-- A row of the answer, with the values of the sort keys and those that `DISTINCT` compares. -/
structure OutputRow where
  keys : List Cell
  apart : List Cell
  cells : List Cell

structure Meaning where
  numeral : Str → ℚ
  bound : Nat → Cell
  /-- An operator by the cells of its operands and the answers of the queries nested in them. -/
  operator : Str → List Cell → List Answer → Cell
  scalar : Str → List Cell → List Answer → Cell
  /-- The functions beside the set functions that aggregate. -/
  isAggregate : Str → Bool
  /-- An aggregate of the arguments on each row, where it is not a set function of at most one. -/
  aggregate : Str → List (List Cell) → Cell
  /-- A call with other clauses in a row of its group, by the answers of its nested queries on the rows. -/
  clausal : Function → List Record → Record → List (List Answer) → Cell
  window : Function → List (List Record) → List Record → Record → List (List Answer) → Cell
  /-- The answer of a nested query, in a row of the query around it. -/
  nested : Query → Tables → Record → Answer
  columns : List TableWithJoins → List Str
  joined : List TableWithJoins → List Clause → Tables → List Record
  /-- The order of two rows. -/
  precedes : List OrderByExpr → OutputRow → OutputRow → Prop
  /-- How many of so many rows are left out, and how many of the rest are kept, by `TOP`, `LIMIT` and `FETCH` and
  the values of their expressions. -/
  slice : Option Fetch → Option LimitClause → Option Fetch → List Cell → Nat → Nat × Nat
  /-- The answers of a query with clauses that are not told apart, by the rows that satisfy its condition and the
  answers of its nested queries on them. -/
  special : Query → List Record → List (List Answer) → Answer → Prop

/-! ### Calls and nested queries of an expression -/

mutual

def Expr.calls : Expr → List Function
  | .binaryOp l _ r => l.calls ++ r.calls
  | .not e => e.calls
  | .nested e => e.calls
  | .isNull e => e.calls
  | .function f => f.calls
  | .inSubquery e _ _ => e.calls
  | .groupingSets _ operands => callsOfAll operands
  | .other _ operands => callsOfAll operands
  | _ => []

def Function.calls : Function → List Function
  | ⟨name, args, filter, overClause, clauses⟩ => ⟨name, args, filter, overClause, clauses⟩ ::
      (args.calls ++ (callsOfOption filter ++ (callsOfClause overClause ++ callsOfClauses clauses)))

def FunctionArguments.calls : FunctionArguments → List Function
  | .list _ args => callsOfArgs args
  | _ => []

def callsOfArgs : List FunctionArg → List Function
  | [] => []
  | arg :: args => arg.calls ++ callsOfArgs args

def FunctionArg.calls : FunctionArg → List Function
  | .unnamed e => e.calls
  | .wildcard => []
  | .named _ e => e.calls

def callsOfOption : Option Expr → List Function
  | none => []
  | some e => e.calls

def callsOfAll : List Expr → List Function
  | [] => []
  | e :: es => e.calls ++ callsOfAll es

def callsOfClause : Option Clause → List Function
  | none => []
  | some ⟨_, exprs⟩ => callsOfAll exprs

def callsOfClauses : List Clause → List Function
  | [] => []
  | ⟨_, exprs⟩ :: clauses => callsOfAll exprs ++ callsOfClauses clauses

end

mutual

def Expr.nestedQueries : Expr → List Query
  | .binaryOp l _ r => l.nestedQueries ++ r.nestedQueries
  | .not e => e.nestedQueries
  | .nested e => e.nestedQueries
  | .isNull e => e.nestedQueries
  | .function f => f.nestedQueries
  | .subquery q => [q]
  | .exists q _ => [q]
  | .inSubquery e q _ => q :: e.nestedQueries
  | .groupingSets _ operands => nestedOfAll operands
  | .other _ operands => nestedOfAll operands
  | _ => []

def Function.nestedQueries : Function → List Query
  | ⟨_, args, filter, overClause, clauses⟩ =>
    args.nestedQueries ++ (nestedOfOption filter ++ (nestedOfClause overClause ++ nestedOfClauses clauses))

def FunctionArguments.nestedQueries : FunctionArguments → List Query
  | .none => []
  | .subquery q => [q]
  | .list _ args => nestedOfArgs args

def nestedOfArgs : List FunctionArg → List Query
  | [] => []
  | arg :: args => arg.nestedQueries ++ nestedOfArgs args

def FunctionArg.nestedQueries : FunctionArg → List Query
  | .unnamed e => e.nestedQueries
  | .wildcard => []
  | .named _ e => e.nestedQueries

def nestedOfOption : Option Expr → List Query
  | none => []
  | some e => e.nestedQueries

def nestedOfAll : List Expr → List Query
  | [] => []
  | e :: es => e.nestedQueries ++ nestedOfAll es

def nestedOfClause : Option Clause → List Query
  | none => []
  | some ⟨_, exprs⟩ => nestedOfAll exprs

def nestedOfClauses : List Clause → List Query
  | [] => []
  | ⟨_, exprs⟩ :: clauses => nestedOfAll exprs ++ nestedOfClauses clauses

end

/-! ### Expressions -/

def onlyCell : List (List Cell) → Cell
  | (cell :: _) :: _ => cell
  | _ => .null

def FunctionArguments.distinct : FunctionArguments → Bool
  | .list distinct _ => distinct
  | _ => false

namespace Meaning
variable (m : Meaning)

def literal : Value → Cell
  | .number text => .number (m.numeral text)
  | .singleQuotedString s => .text s
  | .doubleQuotedString s => .text s
  | .escapedStringLiteral s => .text s
  | .boolean b => .boolean b
  | .null => .null
  | .placeholder p =>
    match placeholderNumber p with
    | some (i + 1) => m.bound i
    | _ => m.operator p [] []
  | .other text => m.operator text [] []

def aggregates (name : Str) : Bool := (setFunction name).isSome || m.isAggregate name

/-- The cell that an aggregate sees on a row. A row counts as present for a call without an argument. -/
def argument (args : List Cell) : Cell := args.headD (.boolean true)

/-- The value of an aggregate whose arguments have these values on the rows of the group. -/
def aggregated (name : Str) (distinct : Bool) (rows : List (List Cell)) : Cell :=
  let rows := if distinct then rows.dedup else rows
  match setFunction name with
  | some fn =>
    if rows.all (·.length ≤ 1) && fn.covers (rows.map argument) then fn.value (rows.map argument)
    else m.aggregate name rows
  | none => m.aggregate name rows

/-- The answers of nested queries in a row. -/
def answers (queries : List Query) (tables : Tables) (row : Record) : List Answer :=
  queries.map fun q => m.nested q tables row

mutual

def eval : Expr → Scope → Cell
  | .identifier x, s => s.row.column x
  | .compoundIdentifier parts, s =>
    match parts.getLast? with
    | some x => s.row.column x
    | none => .null
  | .value v, _ => m.literal v
  | .binaryOp l op r, s =>
    match op with
    | .eq => .ofTruth ((eval l s).equal (eval r s))
    | .and => .ofTruth ((eval l s).truth.and (eval r s).truth)
    | .or => .ofTruth ((eval l s).truth.or (eval r s).truth)
    | .other symbol => m.operator symbol [eval l s, eval r s] []
  | .not e, s => .ofTruth (eval e s).truth.not
  | .nested e, s => eval e s
  | .isNull e, s => .boolean (eval e s = .null)
  | .function f, s => evalFunction f s
  | .subquery q, s => onlyCell (m.nested q s.tables s.row)
  | .exists q negated, s => .boolean (negated != !(m.nested q s.tables s.row).isEmpty)
  | .inSubquery e q negated, s =>
    let equals := (m.nested q s.tables s.row).map fun cells => (eval e s).equal (cells.headD .null)
    let found := equals.foldr Truth.or (some false)
    .ofTruth (if negated then found.not else found)
  | .groupingSets text operands, s =>
    m.operator text (evalAll operands s) (m.answers (nestedOfAll operands) s.tables s.row)
  | .other text operands, s =>
    m.operator text (evalAll operands s) (m.answers (nestedOfAll operands) s.tables s.row)

def evalFunction : Function → Scope → Cell
  | ⟨name, args, filter, overClause, clauses⟩, s =>
    let f : Function := ⟨name, args, filter, overClause, clauses⟩
    if overClause.isSome then
      m.window f s.groups s.group s.row
        ((s.row :: (s.group ++ s.groups.flatten)).map (m.answers f.nestedQueries s.tables))
    else if !clauses.isEmpty then
      m.clausal f s.group s.row ((s.row :: s.group).map (m.answers f.nestedQueries s.tables))
    else if m.aggregates name then
      let rows := s.group.filter fun row => passes filter { s with row }
      m.aggregated name args.distinct (rows.map fun row => evalArguments args { s with row })
    else m.scalar name (evalArguments args s) (m.answers args.nestedQueries s.tables s.row)

def passes : Option Expr → Scope → Bool
  | none, _ => true
  | some e, s => (eval e s).truth = some true

def evalArguments : FunctionArguments → Scope → List Cell
  | .none, _ => []
  | .subquery q, s => [onlyCell (m.nested q s.tables s.row)]
  | .list _ args, s => evalArgs args s

def evalArgs : List FunctionArg → Scope → List Cell
  | [], _ => []
  | arg :: args, s => evalArg arg s :: evalArgs args s

def evalArg : FunctionArg → Scope → Cell
  | .unnamed e, s => eval e s
  | .wildcard, _ => .boolean true
  | .named _ e, s => eval e s

def evalAll : List Expr → Scope → List Cell
  | [], _ => []
  | e :: es, s => eval e s :: evalAll es s

end

/-! ### What a value depends on -/

def isScalarCall (f : Function) : Bool := f.overClause.isNone && f.clauses.isEmpty && !m.aggregates f.name

variable {m} in
theorem overClause_of_isScalarCall {f : Function} (scalar : m.isScalarCall f = true) : f.overClause = none := by
  simp only [isScalarCall, Bool.and_eq_true, Option.isNone_iff_eq_none] at scalar
  exact scalar.1.1

/-- Nested queries answer the same on these rows. -/
def SameOn (queries : List Query) (rows : List Record) (tables tables' : Tables) : Prop :=
  ∀ q ∈ queries, ∀ row ∈ rows, m.nested q tables' row = m.nested q tables row

/-- Two scopes that an expression with these nested queries and calls does not tell apart. -/
structure Alike (queries : List Query) (calls : List Function) (s t : Scope) : Prop where
  row : t.row = s.row
  here : m.SameOn queries [s.row] s.tables t.tables
  group : t.group = s.group ∧ m.SameOn queries s.group s.tables t.tables ∨ ∀ f ∈ calls, m.isScalarCall f = true
  groups : t.groups = s.groups ∧ m.SameOn queries s.groups.flatten s.tables t.tables ∨
    ∀ f ∈ calls, f.overClause = none

variable {m}

theorem SameOn.mono {queries queries' : List Query} {rows rows' : List Record} {tables tables' : Tables}
    (same : m.SameOn queries rows tables tables') (fewer : queries' ⊆ queries) (less : rows' ⊆ rows) :
    m.SameOn queries' rows' tables tables' :=
  fun q member row inside => same q (fewer member) row (less inside)

theorem sameOn_nil {queries : List Query} {tables tables' : Tables} : m.SameOn queries [] tables tables' := by
  intro q _ row inside
  cases inside

theorem SameOn.answers {queries : List Query} {rows : List Record} {tables tables' : Tables}
    (same : m.SameOn queries rows tables tables') :
    rows.map (m.answers queries tables') = rows.map (m.answers queries tables) :=
  List.map_congr_left fun row inside => List.map_congr_left fun q member => same q member row inside

theorem SameOn.answers_row {queries : List Query} {row : Record} {tables tables' : Tables}
    (same : m.SameOn queries [row] tables tables') : m.answers queries tables' row = m.answers queries tables row :=
  (List.cons.inj same.answers).1

theorem Alike.mono {queries queries' : List Query} {calls calls' : List Function} {s t : Scope}
    (alike : m.Alike queries calls s t) (fewer : queries' ⊆ queries) (less : calls' ⊆ calls) :
    m.Alike queries' calls' s t where
  row := alike.row
  here := alike.here.mono fewer (List.Subset.refl _)
  group := alike.group.imp (fun ⟨group, same⟩ => ⟨group, same.mono fewer (List.Subset.refl _)⟩)
    fun scalar f member => scalar f (less member)
  groups := alike.groups.imp (fun ⟨groups, same⟩ => ⟨groups, same.mono fewer (List.Subset.refl _)⟩)
    fun plain f member => plain f (less member)

theorem Alike.left {qs qs' : List Query} {cs cs' : List Function} {s t : Scope}
    (alike : m.Alike (qs ++ qs') (cs ++ cs') s t) : m.Alike qs cs s t :=
  alike.mono (List.subset_append_left _ _) (List.subset_append_left _ _)

theorem Alike.right {qs qs' : List Query} {cs cs' : List Function} {s t : Scope}
    (alike : m.Alike (qs ++ qs') (cs ++ cs') s t) : m.Alike qs' cs' s t :=
  alike.mono (List.subset_append_right _ _) (List.subset_append_right _ _)

/-- In the rows of a group that both have. -/
theorem Alike.at_row {queries : List Query} {calls : List Function} {s t : Scope} (alike : m.Alike queries calls s t)
    (same : m.SameOn queries s.group s.tables t.tables) {row : Record} (member : row ∈ s.group) :
    m.Alike queries calls { s with row } { t with group := s.group, row } where
  row := rfl
  here := same.mono (List.Subset.refl _) (List.cons_subset.mpr ⟨member, List.nil_subset _⟩)
  group := .inl ⟨rfl, same⟩
  groups := alike.groups

mutual

theorem eval_congr : ∀ (e : Expr) {s t : Scope}, m.Alike e.nestedQueries e.calls s t → m.eval e t = m.eval e s
  | .identifier x, s, t, alike => by rw [eval, eval, alike.row]
  | .compoundIdentifier parts, s, t, alike => by rw [eval, eval, alike.row]
  | .value v, s, t, _ => by rw [eval, eval]
  | .binaryOp l op r, s, t, alike => by
    rw [Expr.nestedQueries, Expr.calls] at alike
    have left := eval_congr l alike.left
    have right := eval_congr r alike.right
    cases op <;> rw [eval, eval, left, right]
  | .not e, s, t, alike => by rw [eval, eval, eval_congr e alike]
  | .nested e, s, t, alike => by rw [eval, eval, eval_congr e alike]
  | .isNull e, s, t, alike => by rw [eval, eval, eval_congr e alike]
  | .function f, s, t, alike => by rw [eval, eval, evalFunction_congr f alike]
  | .subquery q, s, t, alike => by
    rw [eval, eval, alike.row, alike.here q List.mem_cons_self _ List.mem_cons_self]
  | .exists q negated, s, t, alike => by
    rw [eval, eval, alike.row, alike.here q List.mem_cons_self _ List.mem_cons_self]
  | .inSubquery e q negated, s, t, alike => by
    have inner : m.Alike e.nestedQueries e.calls s t := alike.mono (List.subset_cons_self _ _) (fun _ h => h)
    rw [eval, eval, eval_congr e inner, alike.row, alike.here q List.mem_cons_self _ List.mem_cons_self]
  | .groupingSets text operands, s, t, alike => by
    have inner : m.Alike (nestedOfAll operands) (callsOfAll operands) s t := alike
    rw [eval, eval, evalAll_congr operands inner, alike.row, inner.here.answers_row]
  | .other text operands, s, t, alike => by
    have inner : m.Alike (nestedOfAll operands) (callsOfAll operands) s t := alike
    rw [eval, eval, evalAll_congr operands inner, alike.row, inner.here.answers_row]

theorem evalFunction_congr : ∀ (f : Function) {s t : Scope}, m.Alike f.nestedQueries f.calls s t →
    m.evalFunction f t = m.evalFunction f s
  | ⟨name, args, filter, overClause, clauses⟩, s, t, alike => by
    have parts : m.Alike (args.nestedQueries ++ (nestedOfOption filter ++ _))
        (args.calls ++ (callsOfOption filter ++ _)) s t :=
      alike.mono (fun _ h => h) (List.subset_cons_self _ _)
    rw [evalFunction, evalFunction]
    dsimp only
    by_cases present : overClause.isSome = true
    · -- A window function is no scalar and has a window, so the groups are the same and the answers on them.
      have windowed : overClause ≠ none := by
        rw [← Option.isSome_iff_ne_none]
        exact present
      obtain ⟨groups, amongGroups⟩ := alike.groups.resolve_right fun plain => windowed (plain _ List.mem_cons_self)
      obtain ⟨group, inGroup⟩ := alike.group.resolve_right fun scalar =>
        windowed (overClause_of_isScalarCall (scalar _ List.mem_cons_self))
      rw [if_pos present, if_pos present, groups, group, alike.row, List.map_cons, List.map_cons, List.map_append,
        List.map_append, alike.here.answers_row, inGroup.answers, amongGroups.answers]
    · rw [if_neg present, if_neg present]
      rcases alike.group with ⟨group, inGroup⟩ | scalar
      · have inParts : m.SameOn (args.nestedQueries ++ (nestedOfOption filter ++ _)) s.group s.tables t.tables := inGroup
        have passing : ∀ row ∈ s.group,
            m.passes filter { t with group := s.group, row } = m.passes filter { s with row } :=
          fun row member => passes_congr filter (parts.at_row inParts member).right.left
        have values : ∀ row ∈ s.group.filter (fun row => m.passes filter { s with row }),
            m.evalArguments args { t with group := s.group, row } = m.evalArguments args { s with row } :=
          fun row member => evalArguments_congr args (parts.at_row inParts (List.mem_filter.mp member).1).left
        rw [group, List.filter_congr passing, List.map_congr_left values, alike.row, List.map_cons, List.map_cons,
          alike.here.answers_row, inGroup.answers, evalArguments_congr args parts.left, parts.left.here.answers_row]
      · have plain := scalar _ List.mem_cons_self
        simp only [isScalarCall, Bool.and_eq_true, Bool.not_eq_true'] at plain
        rw [plain.1.2, plain.2]
        simp only [Bool.not_true, Bool.false_eq_true, if_false]
        rw [evalArguments_congr args parts.left, alike.row, parts.left.here.answers_row]

theorem passes_congr : ∀ (e : Option Expr) {s t : Scope}, m.Alike (nestedOfOption e) (callsOfOption e) s t →
    m.passes e t = m.passes e s
  | none, s, t, _ => by rw [passes, passes]
  | some e, s, t, alike => by rw [passes, passes, eval_congr e alike]

theorem evalArguments_congr : ∀ (args : FunctionArguments) {s t : Scope},
    m.Alike args.nestedQueries args.calls s t → m.evalArguments args t = m.evalArguments args s
  | .none, s, t, _ => by rw [evalArguments, evalArguments]
  | .subquery q, s, t, alike => by
    rw [evalArguments, evalArguments, alike.row, alike.here q List.mem_cons_self _ List.mem_cons_self]
  | .list _ args, s, t, alike => by rw [evalArguments, evalArguments, evalArgs_congr args alike]

theorem evalArgs_congr : ∀ (args : List FunctionArg) {s t : Scope},
    m.Alike (nestedOfArgs args) (callsOfArgs args) s t → m.evalArgs args t = m.evalArgs args s
  | [], s, t, _ => by rw [evalArgs, evalArgs]
  | arg :: args, s, t, alike => by
    rw [nestedOfArgs, callsOfArgs] at alike
    rw [evalArgs, evalArgs, evalArg_congr arg alike.left, evalArgs_congr args alike.right]

theorem evalArg_congr : ∀ (arg : FunctionArg) {s t : Scope}, m.Alike arg.nestedQueries arg.calls s t →
    m.evalArg arg t = m.evalArg arg s
  | .unnamed e, s, t, alike => by rw [evalArg, evalArg, eval_congr e alike]
  | .wildcard, s, t, _ => by rw [evalArg, evalArg]
  | .named _ e, s, t, alike => by rw [evalArg, evalArg, eval_congr e alike]

theorem evalAll_congr : ∀ (es : List Expr) {s t : Scope}, m.Alike (nestedOfAll es) (callsOfAll es) s t →
    m.evalAll es t = m.evalAll es s
  | [], s, t, _ => by rw [evalAll, evalAll]
  | e :: es, s, t, alike => by
    rw [nestedOfAll, callsOfAll] at alike
    rw [evalAll, evalAll, eval_congr e alike.left, evalAll_congr es alike.right]

end

end Meaning
end QuestRouter.Sql
