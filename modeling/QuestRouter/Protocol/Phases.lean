import QuestRouter.Metadata.Actor
import QuestRouter.Protocol.PgSession

/-!
# Parse and Execute

A statement is classified at its Parse, without parameters, and again at its Execute. Whether the hook answers depends
on the class of the text alone, not on the key or the health of its shard, so both phases give the same answer.
-/

namespace QuestRouter.Protocol
open Text Sql Routing Metadata

/-- The snapshots of a phase come from reports of health. -/
structure HealthOf (initial : ClusterSnapshot) (seen : Observed) : Prop where
  tables : ∃ reports, seen.tables = MetadataActor.run initial reports
  classified : ∃ reports, seen.classified = MetadataActor.run initial reports
  routed : ∃ reports, seen.routed = MetadataActor.run initial reports

theorem run_tableRegistry (initial : ClusterSnapshot) (reports : List ReportHealth) :
    (MetadataActor.run initial reports).tableRegistry = initial.tableRegistry := by
  induction reports using List.reverseRecOn with
  | nil => rfl
  | append_singleton reports report ih =>
    rw [MetadataActor.run, List.foldl_append, List.foldl_cons, List.foldl_nil, ← ih, MetadataActor.applyHealth]
    split <;> rfl

/-- The hook answers a text of this class itself. -/
def answered : Except SqlRouteError SqlClassify → Bool
  | .ok .passthrough => true
  | .ok (.routable (.singleShard _ _ _)) => true
  | .ok (.routable _) => false
  | .error (.parse _) => false
  | .error (.unsupported msg) => contains msg onlyReadQueries || contains msg questdbDialectPrefix

namespace RouterQueryHook
variable {hook : RouterQueryHook} {seen : Observed} {sql : Str} {params : Option (List Str)}

/-- A key that is routed is answered, with its shard or with an error that says why there is none. -/
theorem tryResolveHookRoute_keyed {table : Str} {shardKey : Option Str} {shardKeyParam : Option Nat}
    (classified : hook.router.classify seen.classified sql =
      .ok (.routable (.singleShard table shardKey shardKeyParam))) :
    (hook.tryResolveHookRoute seen sql params).isSome = true := by
  obtain ⟨key, resolved⟩ : ∃ key, hook.router.resolveRoute seen.classified seen.routed sql params =
      (routeKey seen.routed key .pg).map .single := by
    unfold DefaultQueryRouter.resolveRoute
    rw [classified]
    exact ⟨_, rfl⟩
  unfold tryResolveHookRoute
  rw [resolved]
  cases routed : routeKey seen.routed key .pg with
  | ok shard => rfl
  | error e =>
    rcases ClusterSnapshot.shardForKey_error routed with ⟨required, available, rfl⟩ | rfl
    · rfl
    · rfl

theorem tryResolveHookRoute_isSome (hook : RouterQueryHook) (seen : Observed) (sql : Str)
    (params : Option (List Str)) :
    (hook.tryResolveHookRoute seen sql params).isSome = answered (hook.router.classify seen.classified sql) := by
  cases classified : hook.router.classify seen.classified sql with
  | error e =>
    unfold tryResolveHookRoute DefaultQueryRouter.resolveRoute
    rw [classified]
    cases e with
    | parse msg => rfl
    | unsupported msg =>
      dsimp only [RoutingError.from, answered]
      split
      · rename_i answers
        rw [answers]
        rfl
      · rename_i silent
        rw [Bool.not_eq_true] at silent
        rw [silent]
        rfl
  | ok class_ =>
    cases class_ with
    | passthrough =>
      unfold tryResolveHookRoute DefaultQueryRouter.resolveRoute
      rw [classified]
      rfl
    | routable plan =>
      cases plan with
      | singleShard table shardKey shardKeyParam => exact tryResolveHookRoute_keyed classified
      | _ =>
        unfold tryResolveHookRoute DefaultQueryRouter.resolveRoute
        rw [classified]
        rfl

theorem tryResolveHookRoute_cases {result : Except RoutingError ResolvedRoute}
    (resolved : hook.tryResolveHookRoute seen sql params = some result) :
    result = .ok .passthrough ∨ (∃ shard, result = .ok (.single shard)) ∨ ∃ e, result = .error e := by
  unfold tryResolveHookRoute at resolved
  split at resolved
  · cases resolved
    exact .inl rfl
  · cases resolved
    exact .inr (.inl ⟨_, rfl⟩)
  · cases resolved
  · split at resolved <;> cases resolved
    exact .inr (.inr ⟨_, rfl⟩)
  · cases resolved
  · cases resolved
    exact .inr (.inr ⟨_, rfl⟩)

/-- The hook leaves a text exactly if it does not answer texts of its class. -/
theorem handleRoutedSql_delegated :
    hook.handleRoutedSql seen sql params = .delegated ↔
      answered (hook.router.classify seen.classified sql) = false := by
  rw [← tryResolveHookRoute_isSome hook seen sql params]
  unfold handleRoutedSql
  cases resolved : hook.tryResolveHookRoute seen sql params with
  | none => exact iff_of_true rfl rfl
  | some result =>
    refine iff_of_false ?_ nofun
    rcases tryResolveHookRoute_cases resolved with rfl | ⟨shard, rfl⟩ | ⟨e, rfl⟩
    · nofun
    · nofun
    · cases e with
      | unsupported msg =>
        dsimp only
        split <;> nofun
      | _ => nofun

theorem handleRawSql_left :
    hook.handleRawSql seen sql params = .delegated ↔
      hook.ensureDatafusionTables seen sql = none ∧
        answered (hook.router.classify seen.classified sql) = false := by
  unfold handleRawSql
  cases hook.ensureDatafusionTables seen sql with
  | none =>
    dsimp only
    rw [handleRoutedSql_delegated, and_iff_right rfl]
  | some e => exact iff_of_false nofun nofun

/-- A Parse is left to DataFusion under the same condition. -/
theorem handleExtendedParseQuery_delegated {statement : Statement} (read : isWriteStatement statement = false) :
    hook.handleExtendedParseQuery seen statement = .delegated ↔
      hook.ensureDatafusionTables seen (hook.router.parser.display statement) = none ∧
        answered (hook.router.classify seen.classified (hook.router.parser.display statement)) = false := by
  rw [← tryResolveHookRoute_isSome hook seen _ none]
  unfold handleExtendedParseQuery
  rw [read, if_neg Bool.false_ne_true]
  dsimp only
  cases hook.ensureDatafusionTables seen (hook.router.parser.display statement) with
  | some e => exact iff_of_false nofun nofun
  | none =>
    rw [and_iff_right rfl]
    cases resolved : hook.tryResolveHookRoute seen (hook.router.parser.display statement) none with
    | none => exact iff_of_true rfl rfl
    | some result =>
      refine iff_of_false ?_ nofun
      rcases tryResolveHookRoute_cases resolved with rfl | ⟨shard, rfl⟩ | ⟨e, rfl⟩
      · nofun
      · nofun
      · cases e with
        | unsupported msg =>
          dsimp only
          split <;> nofun
        | _ => nofun

end RouterQueryHook

namespace HealthOf
variable {initial : ClusterSnapshot} {seen : Observed}

theorem ensureDatafusionTables (health : HealthOf initial seen) (hook : RouterQueryHook) (sql : Str) :
    hook.ensureDatafusionTables seen sql = hook.ensureDatafusionTables ⟨initial, initial, initial⟩ sql := by
  obtain ⟨reports, same⟩ := health.tables
  rw [RouterQueryHook.ensureDatafusionTables, RouterQueryHook.ensureDatafusionTables, same, run_tableRegistry]

theorem classify (health : HealthOf initial seen) (router : DefaultQueryRouter) (sql : Str) :
    router.classify seen.classified sql = router.classify initial sql := by
  obtain ⟨reports, same⟩ := health.classified
  rw [DefaultQueryRouter.classify, DefaultQueryRouter.classify, same, run_tableRegistry]

end HealthOf

/-- Whatever shards are healthy at the Parse and at the Execute of a statement, and whatever is bound, the hook answers
the Execute if it stored the placeholder, and leaves it if it left the Parse. -/
theorem phases_agree (h : QuestDbHandlers) {initial : ClusterSnapshot} {parse execute : Observed}
    (first : HealthOf initial parse) (second : HealthOf initial execute) {statement : Statement}
    (read : isWriteStatement statement = false) {session : Session} (empty : session.dialectSql = none)
    (params : ParamValues) :
    (h.hook.handleExtendedParseQuery parse statement = .dummyPlan →
        (h.handleExtendedQuery execute session statement params).1 ≠ .delegated) ∧
      (h.hook.handleExtendedParseQuery parse statement = .delegated →
        (h.handleExtendedQuery execute session statement params).1 = .delegated) := by
  have text : h.routedText session statement = h.hook.router.parser.display statement := by
    rw [QuestDbHandlers.routedText, QuestDbHandlers.takeDialectSql, empty]
    rfl
  have executed : (h.handleExtendedQuery execute session statement params).1 = .delegated ↔
      h.hook.handleExtendedParseQuery parse statement = .delegated := by
    rw [QuestDbHandlers.handleExtendedQuery, read, if_neg Bool.false_ne_true]
    dsimp only
    rw [text, RouterQueryHook.handleRawSql_left, RouterQueryHook.handleExtendedParseQuery_delegated read,
      first.ensureDatafusionTables, second.ensureDatafusionTables, first.classify, second.classify]
  refine ⟨fun planned left => ?_, executed.mpr⟩
  rw [executed.mp left] at planned
  cases planned

def shardDown : ClusterSnapshot := MetadataActor.run tradesCluster [⟨1, false, false⟩]

theorem phases_agree_selectOne :
    (symbolHandlers.handleExtendedQuery ⟨shardDown, shardDown, shardDown⟩ {} selectOne (.list [])).1 = .delegated := by
  have first : HealthOf tradesCluster ⟨tradesCluster, tradesCluster, tradesCluster⟩ :=
    ⟨⟨[], rfl⟩, ⟨[], rfl⟩, ⟨[], rfl⟩⟩
  have second : HealthOf tradesCluster ⟨shardDown, shardDown, shardDown⟩ := ⟨⟨_, rfl⟩, ⟨_, rfl⟩, ⟨_, rfl⟩⟩
  have session : ({} : Session).dialectSql = none := rfl
  exact (phases_agree symbolHandlers first second (by decide) session (.list [])).2 (by decide +kernel)

end QuestRouter.Protocol
