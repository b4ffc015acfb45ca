import Mathlib.Data.List.Dedup
import QuestRouter.Metadata.Snapshot
import QuestRouter.Routing.Sql

/-!
# Table catalog

The check that the tables a text reads are configured and registered with DataFusion.
-/

namespace QuestRouter.Federated
open Text Sql Routing Metadata

def objectName (name : ObjectName) : Str :=
  ['.'].intercalate (name.filterMap fun
    | .identifier value => some value
    | .function => none)

def factorNames : TableFactor → List Str
  | .table name => [objectName name]
  | .other => []

def collectSelectTables (select : Select) : List Str :=
  select.source.flatMap fun source => factorNames source.relation ++ source.joins.flatMap factorNames

def collectQueryTables (query : Query) : List Str :=
  match query.body with
  | .select select => collectSelectTables select
  | .other => []

/-- `dedup`: of equal neighbours one stays. -/
def dedupNeighbours : List Str → List Str
  | a :: b :: names => if a = b then dedupNeighbours (b :: names) else a :: dedupNeighbours (b :: names)
  | names => names

def extractTableNames (parser : SqlParser) (sql : Str) : List Str :=
  match parser.parseSql sql with
  | .error _ => []
  | .ok statements =>
    let names := statements.flatMap fun
      | .query query => collectQueryTables query
      | _ => []
    dedupNeighbours (names.mergeSort fun a b => decide (a ≤ b))

def bareTableName (qualified : Str) : Str := lastSegment '.' qualified

def isSystemRelation (name : Str) : Bool :=
  let lower := toAsciiLowercase name
  "information_schema".toList.isPrefixOf lower || "pg_catalog".toList.isPrefixOf lower ||
    "pg_".toList.isPrefixOf lower || lower == "information_schema".toList ||
    lower == "pg_catalog".toList

/-- The check of one name. What DataFusion knows of a table is a parameter. -/
def ensureTable (registry : TableRegistry) (tableExist : Str → Except Str Bool) (qualified : Str) :
    Except Str Unit :=
  if isSystemRelation qualified then .ok ()
  else
    let table := bareTableName qualified
    match registry.get table with
    | none => .error ("table ".toList ++ table ++ " is not configured in routing.tables".toList)
    | some _ =>
      match tableExist table with
      | .error e => .error e
      | .ok false => .error ("table ".toList ++ table ++ " is not registered".toList)
      | .ok true => .ok ()

def ensureTablesInSql (parser : SqlParser) (registry : TableRegistry)
    (tableExist : Str → Except Str Bool) (sql : Str) : Except Str Unit :=
  let names := if hasQuestdbExtension sql then (extractFromTable sql).toList else extractTableNames parser sql
  names.forM (ensureTable registry tableExist)

end QuestRouter.Federated
