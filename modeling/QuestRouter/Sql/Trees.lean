import QuestRouter.Sql.Ast

/-!
# Whole trees

A query with everything in it that may name a table: joins, queries in parentheses, common table expressions, set
operations, and the queries nested in its expressions. The syntax tree that the router looks at is the part of it
that it can tell apart.
-/

namespace QuestRouter.Sql
open Text

mutual

/-- An item of a `FROM`. Table functions and the like name no table. -/
inductive Source where
  | table (name : ObjectName)
  | derived (t : Tree)
  | joined (sources : List Joined)
  | other

structure Joined where
  relation : Source
  joins : List Source

inductive Body where
  /-- A `SELECT`: its clauses, its `FROM`, and the queries nested in its expressions. -/
  | select (clauses : Select) (sources : List Joined) (nested : List Tree)
  | setOperation (left right : Body)
  | query (t : Tree)
  | other (nested : List Tree)

structure CommonTable where
  name : Str
  tree : Tree

structure Tree where
  recursive : Bool := false
  commonTables : List CommonTable := []
  body : Body
  /-- What follows the body, and the queries nested in it. -/
  tail : Query := { body := .other }
  nested : List Tree := []

end

/-! ### What the router looks at -/

def Source.seen : Source → TableFactor
  | .table name => .table name
  | _ => .other

def Joined.seen (j : Joined) : TableWithJoins := ⟨j.relation.seen, j.joins.map Source.seen⟩

def Body.seen : Body → SetExpr
  | .select clauses sources _ => .select { clauses with source := sources.map Joined.seen }
  | _ => .other

def Tree.seen (t : Tree) : Query := { t.tail with withClause := !t.commonTables.isEmpty, body := t.body.seen }

/-- The parser reads a query as the part that is seen of its tree. -/
def SqlParser.SeesTree (parser : SqlParser) (read : Str → Option Tree) (sql : Str) : Prop :=
  ∀ query, parser.parseSql sql = .ok [.query query] → ∃ t, read sql = some t ∧ t.seen = query

/-! ### Tables that are named -/

/-- Whether a table is named in a query that is nested in an expression. -/
inductive Place where
  | outside
  | nested
  deriving DecidableEq, Repr

/-- The name of a common table expression. -/
def isBound (bound : List Str) : ObjectName → Bool
  | [.identifier value] => bound.any fun name => eqIgnoreAsciiCase name value
  | _ => false

theorem isBound_nil (name : ObjectName) : isBound [] name = false := by
  unfold isBound
  split <;> rfl

def inNested (naming : Place × ObjectName) : Place × ObjectName := (.nested, naming.2)

mutual

/-- The tables that the item names, where these names are bound. -/
def Source.namings (bound : List Str) : Source → List (Place × ObjectName)
  | .table name => if isBound bound name then [] else [(.outside, name)]
  | .derived t => t.namings bound
  | .joined sources => namingsOfJoined bound sources
  | .other => []

def Joined.namings (bound : List Str) : Joined → List (Place × ObjectName)
  | ⟨relation, joins⟩ => relation.namings bound ++ namingsOfSources bound joins

def namingsOfSources (bound : List Str) : List Source → List (Place × ObjectName)
  | [] => []
  | source :: sources => source.namings bound ++ namingsOfSources bound sources

def namingsOfJoined (bound : List Str) : List Joined → List (Place × ObjectName)
  | [] => []
  | source :: sources => source.namings bound ++ namingsOfJoined bound sources

def Body.namings (bound : List Str) : Body → List (Place × ObjectName)
  | .select _ sources nested => namingsOfJoined bound sources ++ (namingsOfTrees bound nested).map inNested
  | .setOperation left right => left.namings bound ++ right.namings bound
  | .query t => t.namings bound
  | .other nested => (namingsOfTrees bound nested).map inNested

def namingsOfTrees (bound : List Str) : List Tree → List (Place × ObjectName)
  | [] => []
  | t :: ts => t.namings bound ++ namingsOfTrees bound ts

/-- Each common table expression knows the ones before it. -/
def namingsOfCommon (bound : List Str) : List CommonTable → List (Place × ObjectName)
  | [] => []
  | ⟨name, t⟩ :: rest => t.namings bound ++ namingsOfCommon (name :: bound) rest

def Tree.namings (bound : List Str) : Tree → List (Place × ObjectName)
  | ⟨recursive, commonTables, body, _, nested⟩ =>
    let scope := commonTables.map CommonTable.name ++ bound
    namingsOfCommon (if recursive then scope else bound) commonTables ++ body.namings scope ++
      (namingsOfTrees scope nested).map inNested

end

/-! ### A query from one table -/

/-- Where the router sees one table and no common table expression, the tree names it and what its nested queries
name. -/
theorem Tree.namings_of_table {t : Tree} {query : Query} {select : Select} {name : ObjectName} (seen : t.seen = query)
    (noWith : query.withClause = false) (body : query.body = .select select)
    (source : select.source = [⟨.table name, []⟩]) :
    ∃ nested : List (Place × ObjectName), t.namings [] = (.outside, name) :: nested.map inNested := by
  obtain ⟨recursive, commonTables, tree, tail, nested⟩ := t
  subst seen
  obtain rfl : commonTables = [] := by simpa [Tree.seen] using noWith
  cases tree with
  | select clauses sources inner =>
    have from_eq : sources.map Joined.seen = [⟨.table name, []⟩] := by
      rw [← source, ← SetExpr.select.inj body]
    obtain ⟨⟨relation, joins⟩, rfl, same⟩ := List.map_eq_singleton_iff.mp from_eq
    obtain ⟨relation_eq, joins_eq⟩ := TableWithJoins.mk.inj same
    obtain rfl : joins = [] := List.map_eq_nil_iff.mp joins_eq
    cases relation with
    | table named =>
      obtain rfl : named = name := TableFactor.table.inj relation_eq
      refine ⟨namingsOfTrees [] inner ++ namingsOfTrees [] nested, ?_⟩
      simp [Tree.namings, namingsOfCommon, Body.namings, namingsOfJoined, Joined.namings, namingsOfSources,
        Source.namings, isBound_nil]
    | _ => cases relation_eq
  | _ => cases body

end QuestRouter.Sql
