import QuestRouter.Text.Str

/-!
# Syntax trees

The part of the `sqlparser` syntax tree that the router looks at. Node kinds it never
distinguishes are one constructor, `other`. The parser is a parameter.
-/

namespace QuestRouter.Sql
open Text

inductive Value where
  | number (text : Str)
  | singleQuotedString (s : Str)
  | doubleQuotedString (s : Str)
  | escapedStringLiteral (s : Str)
  | boolean (b : Bool)
  | null
  | placeholder (p : Str)
  | other (text : Str)
  deriving DecidableEq, Repr

inductive BinaryOperator where
  | eq
  | and
  | or
  | other (symbol : Str)
  deriving DecidableEq, Repr

inductive ObjectNamePart where
  | identifier (value : Str)
  | function
  deriving DecidableEq, Repr

abbrev ObjectName := List ObjectNamePart

inductive TableFactor where
  | table (name : ObjectName)
  | other
  deriving DecidableEq, Repr

structure TableWithJoins where
  relation : TableFactor
  joins : List TableFactor
  deriving DecidableEq, Repr

mutual

/-- An expression. A node that is not told apart has its text and its operands. -/
inductive Expr where
  | identifier (value : Str)
  | compoundIdentifier (parts : List Str)
  | value (v : Value)
  | binaryOp (left : Expr) (op : BinaryOperator) (right : Expr)
  | not (e : Expr)
  | nested (e : Expr)
  | isNull (e : Expr)
  | function (f : Function)
  | subquery (q : Query)
  | exists (q : Query) (negated : Bool)
  | inSubquery (e : Expr) (q : Query) (negated : Bool)
  /-- `ROLLUP`, `CUBE`, `GROUPING SETS` or `()` in a `GROUP BY`. -/
  | groupingSets (text : Str) (operands : List Expr)
  | other (text : Str) (operands : List Expr)

/-- A clause that is not told apart, by its text and its expressions. -/
structure Clause where
  text : Str
  exprs : List Expr

inductive FunctionArg where
  | unnamed (e : Expr)
  | wildcard
  | named (name : Str) (e : Expr)

inductive FunctionArguments where
  | none
  | subquery (q : Query)
  | list (distinct : Bool) (args : List FunctionArg)

/-- A call, with its `FILTER` condition, its `OVER` clause and the rest, such as an order of its arguments. -/
structure Function where
  name : Str
  args : FunctionArguments
  filter : Option Expr := none
  overClause : Option Clause := none
  clauses : List Clause := []

inductive SelectItem where
  | unnamedExpr (e : Expr)
  | exprWithAlias (e : Expr) (name : Str)
  | qualifiedWildcard
  | wildcard

inductive GroupByExpr where
  | expressions (exprs : List Expr)
  | all

inductive Distinct where
  | distinct
  | on (exprs : List Expr)

/-- A number of rows, of `FETCH` or `TOP`. -/
structure Fetch where
  quantity : Option Expr
  percent : Bool := false
  withTies : Bool := false

structure Select where
  distinct : Option Distinct := none
  top : Option Fetch := none
  projection : List SelectItem
  into : Option ObjectName := none
  source : List TableWithJoins
  /-- What takes other rows from the tables: arguments, a sample, `LATERAL VIEW`, `PREWHERE`, `CONNECT BY`. -/
  sourceClauses : List Clause := []
  selection : Option Expr := none
  groupBy : GroupByExpr
  groupByModifiers : List Str := []
  having : Option Expr := none
  qualify : Option Expr := none
  /-- All other clauses, and what follows a `*`. -/
  clauses : List Clause := []

inductive SetExpr where
  | select (s : Select)
  | other

structure OrderByExpr where
  expr : Expr
  asc : Option Bool := none
  nullsFirst : Option Bool := none

inductive LimitClause where
  | limitOffset (limit offset : Option Expr)
  | offsetCommaLimit (offset limit : Expr)

/-- A query; of its `WITH` only the presence is looked at. `ORDER BY ALL` has no expressions. -/
structure Query where
  withClause : Bool := false
  body : SetExpr
  orderBy : Option (List OrderByExpr) := none
  limitClause : Option LimitClause := none
  limitBy : List Expr := []
  fetch : Option Fetch := none
  /-- Locks, a format, pipe operators. -/
  clauses : List Clause := []

end

inductive Statement where
  | query (q : Query)
  | startTransaction
  | commit
  | rollback
  | set
  | showVariable
  | showVariables
  | discard
  | deallocate
  | close
  | insert
  | update
  | delete
  | createTable
  | createView
  | drop
  | alterTable
  | truncate
  | copy
  | other

def columnNamed (name : String) : Expr := .identifier name.toList

/-- `Parser::parse_sql` with its error text, and the text a statement is displayed as. -/
structure SqlParser where
  parseSql : Str → Except Str (List Statement)
  display : Statement → Str

end QuestRouter.Sql
