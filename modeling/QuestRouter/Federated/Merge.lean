import QuestRouter.Metadata.Snapshot
import QuestRouter.Routing.Sql
import QuestRouter.Sql.SetFunction

/-!
# Federated execution

A statement is sent to every healthy shard and the responses are merged: the rows of a scan one shard after
the other, the first cells of an aggregate into one value. Cells are exact numbers where they are numbers.
-/

namespace QuestRouter.Federated
open Text Sql Routing Metadata

structure FieldInfo where
  name : Str
  datatype : Str
  deriving DecidableEq, Repr

abbrev DataRow := List Cell

/-- What a shard sends back for one statement. -/
inductive ClientResponse where
  | query (fields : List FieldInfo) (rows : List DataRow)
  | emptyQuery
  | execution
  deriving DecidableEq

def ClientResponse.rows : ClientResponse → List DataRow
  | .query _ rows => rows
  | _ => []

inductive Response where
  | query (fields : List FieldInfo) (rows : List DataRow)
  | emptyQuery
  deriving DecidableEq

inductive FederatedError where
  | routing (e : RoutingError)
  | shardQuery (shardId : Nat) (message : Str)
  | schemaMismatch (message : Str)
  | rowLimitExceeded (limit : Nat)
  deriving DecidableEq

/-- A shard gives no client, or its client fails on the statement. -/
inductive ShardFailure where
  | acquire (message : Str)
  | query (message : Str)
  deriving DecidableEq

structure FederatedExecutor where
  snapshot : ClusterSnapshot
  maxFederatedRows : Nat
  /-- What the client of each shard gives for a text. -/
  clients : Nat → Str → Except ShardFailure (List ClientResponse)
  parser : SqlParser
  /-- The text an expression is displayed as. -/
  exprText : Expr → Str
  /-- The number that a text reads as. -/
  parseF64 : Str → Option ℚ

def shardQueryText (shardId : Nat) (message : Str) : Str :=
  "shard ".toList ++ decimal shardId ++ " query failed: ".toList ++ message

def isMissingTableError (text : Str) : Bool := contains (toAsciiLowercase text) "table does not exist".toList

def healthyPgShardIds (snap : ClusterSnapshot) : Except RoutingError (List Nat) := do
  snap.ensureMinHealthy .pg
  return snap.healthyShardIds .pg

def queryShard (x : FederatedExecutor) (sql : Str) (shardId : Nat) :
    Except FederatedError (Nat × List ClientResponse) :=
  match x.clients shardId sql with
  | .ok responses => .ok (shardId, responses)
  | .error (.acquire message) => .error (.shardQuery shardId message)
  | .error (.query message) =>
    if isMissingTableError (shardQueryText shardId message) then .ok (shardId, [])
    else .error (.shardQuery shardId message)

def queryAllShards (x : FederatedExecutor) (sql : Str) :
    Except FederatedError (List (Nat × List ClientResponse)) :=
  match healthyPgShardIds x.snapshot with
  | .error e => .error (.routing e)
  | .ok shardIds => shardIds.mapM (queryShard x sql)

/-! ### Scans -/

/-- The loop over the rows of one response. -/
def mergeRows (maxRows : Nat) : List DataRow → List DataRow → Except FederatedError (List DataRow)
  | allRows, [] => .ok allRows
  | allRows, row :: rows =>
    if allRows.length ≥ maxRows then .error (.rowLimitExceeded maxRows)
    else mergeRows maxRows (allRows ++ [row]) rows

def columnsMismatch (expected got : Nat) : Str :=
  "expected ".toList ++ decimal expected ++ " columns, got ".toList ++ decimal got

def mergeResponse (maxRows : Nat) : Option (List FieldInfo) × List DataRow → ClientResponse →
    Except FederatedError (Option (List FieldInfo) × List DataRow)
  | (fields, allRows), .query f rows =>
    match fields with
    | some existing =>
      if existing.length ≠ f.length then
        .error (.schemaMismatch (columnsMismatch existing.length f.length))
      else (mergeRows maxRows allRows rows).map fun all => (some existing, all)
    | none => (mergeRows maxRows allRows rows).map fun all => (some f, all)
  | merged, .emptyQuery => .ok merged
  | merged, .execution => .ok merged

def mergeQueryResponses (shardResults : List (Nat × List ClientResponse)) (maxRows : Nat) :
    Except FederatedError (List Response) :=
  match (shardResults.flatMap Prod.snd).foldlM (mergeResponse maxRows) (none, []) with
  | .error e => .error e
  | .ok (fields, allRows) => .ok [.query (fields.getD []) allRows]

def executeFullScan (x : FederatedExecutor) (sql : Str) : Except FederatedError (List Response) := do
  let shardResults ← queryAllShards x sql
  mergeQueryResponses shardResults x.maxFederatedRows

/-! ### Aggregates -/

def cellF64 (parse : Str → Option ℚ) : Cell → Option ℚ
  | .number n => some n
  | .text s => parse s
  | _ => none

def firstCellF64 (parse : Str → Option ℚ) (row : DataRow) : Option ℚ := row.head?.bind (cellF64 parse)

def responseRows (shardResults : List (Nat × List ClientResponse)) : List DataRow :=
  (shardResults.flatMap Prod.snd).flatMap ClientResponse.rows

def firstFields (shardResults : List (Nat × List ClientResponse)) : Option (List FieldInfo) :=
  (shardResults.flatMap Prod.snd).findSome? fun
    | .query fields _ => some fields
    | _ => none

/-- `as i64` of a whole number. -/
def asI64 (n : ℤ) : ℤ := max (-2 ^ 63) (min n (2 ^ 63 - 1))

/-- The number that the merged value is written as. -/
def written (merged : ℚ) : ℚ := if merged.den = 1 then asI64 merged.num else merged

/-- The folds of minimum and maximum start from an infinity, which gives way to any value. -/
def mergeValues (kind : AggKind) (values : List ℚ) : ℚ :=
  match kind with
  | .count | .sum => values.sum
  | .min => (Data.reduce min values).getD 0
  | .max => (Data.reduce max values).getD 0
  | .avg => values.sum / values.length

def countField : List FieldInfo := [⟨"count".toList, "int8".toList⟩]

def mergeScalarAggregate (parse : Str → Option ℚ) (shardResults : List (Nat × List ClientResponse))
    (kind : AggKind) : List Response :=
  let values := (responseRows shardResults).filterMap (firstCellF64 parse)
  if values.isEmpty then [.emptyQuery]
  else [.query ((firstFields shardResults).getD countField) [[.number (written (mergeValues kind values))]]]

def sumAndCount (parse : Str → Option ℚ) : DataRow → Option (ℚ × ℚ)
  | sum :: count :: _ => do
    let s ← cellF64 (fun text => parse (trim text)) sum
    let c ← cellF64 (fun text => parse (trim text)) count
    return (s, c)
  | _ => none

def avgField : List FieldInfo := [⟨"avg".toList, "float8".toList⟩]

def mergeAvg (parse : Str → Option ℚ) (shardResults : List (Nat × List ClientResponse)) : List Response :=
  let partials := (responseRows shardResults).filterMap (sumAndCount parse)
  let totalSum := (partials.map Prod.fst).sum
  let totalCount := (partials.map Prod.snd).sum
  if partials.isEmpty || totalCount = 0 then [.emptyQuery]
  else [.query avgField [[.number (totalSum / totalCount)]]]

def avgArgumentSql (exprText : Expr → Str) : FunctionArguments → Option Str
  | .list _ (.unnamed e :: _) => some (exprText e)
  | _ => none

/-- The loop over the projection, with the argument found so far. -/
def avgArg (exprText : Expr → Str) (found : Option Str) : SelectItem → Option Str
  | .unnamedExpr (.function func) =>
    if eqIgnoreAsciiCase func.name "avg".toList then avgArgumentSql exprText func.args else found
  | _ => found

def helperSql (arg : Str) : Str := "SELECT sum(".toList ++ arg ++ ") , count(".toList ++ arg ++ ")".toList

def helperProjection (parser : SqlParser) (sql : Str) : Option (List SelectItem) :=
  match parser.parseSql sql with
  | .ok (.query helper :: _) =>
    match helper.body with
    | .select select => some select.projection
    | .other => none
  | _ => none

def rewriteAvgToSumCount (parser : SqlParser) (exprText : Expr → Str) (sql : Str) : Option Str :=
  match parser.parseSql sql with
  | .ok [.query query] =>
    match query.body with
    | .select select => do
      let arg ← select.projection.foldl (avgArg exprText) none
      let projection ← helperProjection parser (helperSql arg)
      return parser.display (.query { query with body := .select { select with projection } })
    | .other => none
  | _ => none

def executeAggregateScan (x : FederatedExecutor) (sql : Str) (kind : AggKind) :
    Except FederatedError (List Response) :=
  match kind with
  | .avg =>
    match rewriteAvgToSumCount x.parser x.exprText sql with
    | none =>
      .error (.schemaMismatch "cannot decompose AVG into SUM/COUNT for federated merge".toList)
    | some rewritten => do
      let shardResults ← queryAllShards x rewritten
      return mergeAvg x.parseF64 shardResults
  | kind => do
    let shardResults ← queryAllShards x sql
    return mergeScalarAggregate x.parseF64 shardResults kind

end QuestRouter.Federated
