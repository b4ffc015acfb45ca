import QuestRouter.Metadata.Snapshot
import QuestRouter.Routing.Sql

/-!
# Query router

Two entry points turn a plan into a shard. `resolveRoute` is given the text, `routeSqlInfo` an
analysis made before. Each reads the current snapshot where it needs one, so the snapshot a text is
classified under and the one its key is routed under are separate arguments.
-/

namespace QuestRouter.Routing
open Text Sql Metadata

inductive ResolvedRoute where
  | single (shard : ShardConfig)
  | federated (plan : RoutePlan)
  | passthrough
  deriving DecidableEq, Repr

/-- Where the key of a statement comes from; a parameter index is 0-based. -/
structure SqlRouteInfo where
  table : Str
  shardKey : Option Str
  shardKeyParam : Option Nat
  deriving DecidableEq, Repr

structure DefaultQueryRouter where
  parser : SqlParser
  defaultShardKey : Str
  scanAllowOrderBy : Bool

def routeKey (snap : ClusterSnapshot) (key : Str) (protocol : Protocol) :
    Except RoutingError ShardConfig := snap.shardForKey key protocol

/-- `params.and_then(|p| p.get(idx))`. -/
def boundParam (params : Option (List Str)) (idx : Nat) : Option Str := params.bind (·[idx]?)

namespace DefaultQueryRouter

def classify (router : DefaultQueryRouter) (snap : ClusterSnapshot) (sql : Str) :
    Except SqlRouteError SqlClassify :=
  classifySql router.parser sql router.defaultShardKey snap.tableRegistry router.scanAllowOrderBy

def resolveRoute (router : DefaultQueryRouter) (snap routed : ClusterSnapshot) (sql : Str)
    (params : Option (List Str)) : Except RoutingError ResolvedRoute :=
  match router.classify snap sql with
  | .error e => .error (.from e)
  | .ok .passthrough => .ok .passthrough
  | .ok (.routable (.singleShard table shardKey shardKeyParam)) =>
    let key := match shardKeyParam with
      | some idx => (boundParam params idx).getD table
      | none => shardKey.getD table
    (routeKey routed key .pg).map .single
  | .ok (.routable plan) => .ok (.federated plan)

end DefaultQueryRouter

/-- `AppState::route_sql_info`. -/
def routeSqlInfo (routed : ClusterSnapshot) (info : SqlRouteInfo) (params : Option (List Str)) :
    Except RoutingError ShardConfig :=
  match info.shardKeyParam with
  | some idx =>
    match boundParam params idx with
    | some key => routeKey routed key .pg
    | none => .error (.unsupported ("missing bind parameter $".toList ++ decimal (idx + 1) ++
        " for shard key".toList))
  | none =>
    match info.shardKey with
    | some key => routeKey routed key .pg
    | none => .error (.unsupported "query has no shard-key value to route on".toList)

/-! ### Keyed routes -/

/-- The value of a plan's key: its literal, or what is bound at its parameter index. -/
def keyValue (params : Option (List Str)) (shardKey : Option Str) (shardKeyParam : Option Nat) :
    Option Str :=
  match shardKeyParam with
  | some idx => boundParam params idx
  | none => shardKey

/-- The key of the statement's one-shard plan, where it has one and its value is known. -/
def statementKey (router : DefaultQueryRouter) (snap : ClusterSnapshot) (sql : Str)
    (params : Option (List Str)) : Option Str :=
  match router.classify snap sql with
  | .ok (.routable (.singleShard _ shardKey shardKeyParam)) => keyValue params shardKey shardKeyParam
  | _ => none

/-- A route to one shard is the route of the key's value. -/
def RoutesByKey (router : DefaultQueryRouter) (snap routed : ClusterSnapshot) (sql : Str)
    (params : Option (List Str)) : Prop :=
  ∀ shard, router.resolveRoute snap routed sql params = .ok (.single shard) →
    ∃ key, statementKey router snap sql params = some key ∧ routed.shardForKey key .pg = .ok shard

/-- No parameter that holds a key is missing, unless the name of the table has no shard. -/
def KeyParamBound (router : DefaultQueryRouter) (snap routed : ClusterSnapshot) (sql : Str)
    (params : Option (List Str)) : Prop :=
  ∀ table shardKey idx, router.classify snap sql = .ok (.routable (.singleShard table shardKey (some idx))) →
    boundParam params idx = none → ∀ shard, routed.shardForKey table .pg ≠ .ok shard

namespace DefaultQueryRouter
variable {router : DefaultQueryRouter} {snap routed : ClusterSnapshot} {sql : Str}
  {params : Option (List Str)}

theorem resolveRoute_single {shard : ShardConfig} :
    router.resolveRoute snap routed sql params = .ok (.single shard) ↔
      ∃ table shardKey shardKeyParam,
        router.classify snap sql = .ok (.routable (.singleShard table shardKey shardKeyParam)) ∧
        routed.shardForKey ((keyValue params shardKey shardKeyParam).getD table) .pg = .ok shard := by
  unfold resolveRoute
  cases classified : router.classify snap sql with
  | error e => simp
  | ok result =>
    rcases result with plan | _
    · cases plan with
      | singleShard table shardKey shardKeyParam =>
        cases shardKeyParam <;> simp [Except.map_ok, routeKey, keyValue]
      | _ => simp
    · simp

/-- A route to one shard is the route of the key's value exactly if no key parameter is missing. -/
theorem resolveRoute_by_key_iff (router : DefaultQueryRouter) (snap routed : ClusterSnapshot) (sql : Str)
    (params : Option (List Str)) :
    RoutesByKey router snap routed sql params ↔ KeyParamBound router snap routed sql params := by
  constructor
  · intro byKey table shardKey idx classified missing shard found
    have routes : router.resolveRoute snap routed sql params = .ok (.single shard) :=
      resolveRoute_single.mpr ⟨table, shardKey, some idx, classified, by simpa [keyValue, missing]⟩
    obtain ⟨key, value, _⟩ := byKey shard routes
    simp [statementKey, classified, keyValue, missing] at value
  · intro present shard routes
    obtain ⟨table, shardKey, shardKeyParam, classified, found⟩ := resolveRoute_single.mp routes
    cases value : keyValue params shardKey shardKeyParam with
    | some key =>
      rw [value] at found
      exact ⟨key, by simp [statementKey, classified, value], found⟩
    | none =>
      rw [value] at found
      rcases classifySql_oneKey classified with ⟨key, rfl, rfl⟩ | ⟨idx, rfl, rfl⟩
      · cases value
      · exact (present table none idx classified value shard found).elim

end DefaultQueryRouter

/-! A statement whose key is an unbound parameter. -/

def noParser : SqlParser := ⟨fun _ => .error [], fun _ => []⟩

def symbolRouter : DefaultQueryRouter := ⟨noParser, "symbol".toList, false⟩

def sampleByParam : Str := "SELECT ts FROM trades WHERE symbol = $1 SAMPLE BY 15m".toList

/-- Without parameters the statement is routed by the name of its table. -/
theorem unbound_key_routes_by_table :
    ¬ RoutesByKey symbolRouter (twoShards "trades".toList []) (twoShards "trades".toList [])
      sampleByParam none := by
  intro byKey
  obtain ⟨key, value, _⟩ := byKey shardB (by decide +kernel)
  have missing : statementKey symbolRouter (twoShards "trades".toList []) sampleByParam none = none := by
    decide +kernel
  rw [missing] at value
  cases value

/-- The other entry point refuses it. -/
example : routeSqlInfo (twoShards "trades".toList []) ⟨"trades".toList, none, some 0⟩ none =
    .error (.unsupported "missing bind parameter $1 for shard key".toList) := by decide +kernel

end QuestRouter.Routing
