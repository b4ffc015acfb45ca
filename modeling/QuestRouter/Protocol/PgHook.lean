import QuestRouter.Federated.Catalog
import QuestRouter.Protocol.PgBackend
import QuestRouter.Routing.Router

/-!
# PG query hook

The hook answers a query itself, or leaves it to DataFusion. What it forwards to a shard is the
text in its result; what the shard answers is not modelled.
-/

namespace QuestRouter.Protocol
open Text Sql Routing Metadata Federated

inductive PgWireError where
  | readOnly
  | routing (e : RoutingError)
  | wire (message : Str)
  | api (message : Str)
  deriving DecidableEq, Repr

inductive HookResult where
  /-- The hook does not answer. -/
  | delegated
  | error (e : PgWireError)
  /-- `query_shard_pool`. -/
  | pooled (shardId : Nat) (sql : Str)
  /-- `relay_passthrough`. -/
  | relayed (sql : Str)
  deriving DecidableEq, Repr

def HookResult.forwarded : HookResult → Option Str
  | .pooled _ sql => some sql
  | .relayed sql => some sql
  | _ => none

structure RouterQueryHook where
  router : DefaultQueryRouter
  tableExist : Str → Except Str Bool

/-- The snapshots one query is handled under: the hook reads the current one three times. -/
structure Observed where
  tables : ClusterSnapshot
  classified : ClusterSnapshot
  routed : ClusterSnapshot

def onlyReadQueries : Str := "only read queries".toList

def isWriteStatement : Statement → Bool
  | .insert | .update | .delete | .createTable | .createView | .drop | .alterTable | .truncate
  | .copy => true
  | _ => false

namespace RouterQueryHook

def ensureDatafusionTables (hook : RouterQueryHook) (seen : Observed) (sql : Str) : Option PgWireError :=
  match ensureTablesInSql hook.router.parser seen.tables.tableRegistry hook.tableExist sql with
  | .error e => some (.wire e)
  | .ok () => none

/-- Only keyed reads of one shard, session statements and some errors are answered here. -/
def tryResolveHookRoute (hook : RouterQueryHook) (seen : Observed) (sql : Str)
    (params : Option (List Str)) : Option (Except RoutingError ResolvedRoute) :=
  match hook.router.resolveRoute seen.classified seen.routed sql params with
  | .ok .passthrough => some (.ok .passthrough)
  | .ok (.single shard) => some (.ok (.single shard))
  | .ok (.federated _) => none
  | .error (.unsupported msg) =>
    if contains msg onlyReadQueries || contains msg questdbDialectPrefix then
      some (.error (.unsupported msg))
    else none
  | .error (.parse _) => none
  | .error e => some (.error e)

def backendSql (sql : Str) (params : Option (List Str)) : Str :=
  match params with
  | some (p :: ps) => inlineSqlParams sql (p :: ps)
  | _ => sql

def handleRoutedSql (hook : RouterQueryHook) (seen : Observed) (sql : Str)
    (params : Option (List Str)) : HookResult :=
  match hook.tryResolveHookRoute seen sql params with
  | none => .delegated
  | some (.error (.unsupported msg)) =>
    if contains msg onlyReadQueries then .error .readOnly else .error (.routing (.unsupported msg))
  | some (.error e) => .error (.routing e)
  | some (.ok .passthrough) => .relayed sql
  | some (.ok (.single shard)) => .pooled shard.id (backendSql sql params)
  | some (.ok (.federated _)) => .delegated

def handleRawSql (hook : RouterQueryHook) (seen : Observed) (sql : Str) (params : Option (List Str)) :
    HookResult :=
  match hook.ensureDatafusionTables seen sql with
  | some e => .error e
  | none => hook.handleRoutedSql seen sql params

def handleSimpleQuery (hook : RouterQueryHook) (seen : Observed) (statement : Statement) : HookResult :=
  if isWriteStatement statement then .error .readOnly
  else hook.handleRawSql seen (hook.router.parser.display statement) none

/-- What the hook returns for a Parse. -/
inductive ParseResult where
  | delegated
  | error (e : PgWireError)
  /-- The placeholder that is stored in place of a plan. -/
  | dummyPlan
  deriving DecidableEq, Repr

def handleExtendedParseQuery (hook : RouterQueryHook) (seen : Observed) (statement : Statement) : ParseResult :=
  if isWriteStatement statement then .delegated
  else
    let sql := hook.router.parser.display statement
    match hook.ensureDatafusionTables seen sql with
    | some e => .error e
    | none =>
      match hook.tryResolveHookRoute seen sql none with
      | none => .delegated
      | some (.ok .passthrough) => .dummyPlan
      | some (.ok (.single _)) => .dummyPlan
      | some (.ok (.federated _)) => .delegated
      | some (.error (.unsupported msg)) =>
        if contains msg onlyReadQueries then .error .readOnly else .error (.routing (.unsupported msg))
      | some (.error e) => .error (.routing e)

end RouterQueryHook
end QuestRouter.Protocol
