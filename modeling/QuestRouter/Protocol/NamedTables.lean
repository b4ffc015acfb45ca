import QuestRouter.Protocol.ReadOnly
import QuestRouter.Sql.Trees

/-!
# Tables that a forwarded text names

Before a text is forwarded, the tables of its own `FROM` are looked up in the configuration, and of dialect text the
name after the first ` FROM `. The whole text is sent. What it names elsewhere is not looked up.
-/

namespace QuestRouter.Protocol
open Text Sql Routing Metadata Federated

/-- A system relation, or a table of `routing.tables`. -/
def Configured (registry : TableRegistry) (name : Str) : Prop :=
  isSystemRelation name = true ∨ (registry.get (bareTableName name)).isSome = true

/-- The tables that a text names, and where. How a text reads as SQL is a parameter. -/
def named (read : Str → Option Tree) (sql : Str) : List (Place × Str) :=
  match read sql with
  | some t => (t.namings []).map fun naming => (naming.1, Federated.objectName naming.2)
  | none => []

/-! ### What is checked -/

theorem forM_ok {ε α : Type} {f : α → Except ε Unit} {xs : List α} (ok : xs.forM f = .ok ()) :
    ∀ x ∈ xs, f x = .ok () := by
  induction xs with
  | nil =>
    intro x member
    cases member
  | cons x xs ih =>
    change (f x >>= fun _ => xs.forM f) = .ok () at ok
    cases first : f x with
    | error e =>
      rw [first] at ok
      cases ok
    | ok u =>
      rw [first] at ok
      intro y member
      rcases List.mem_cons.mp member with rfl | later
      · exact first
      · exact ih ok y later

theorem ensureTable_configured {registry : TableRegistry} {tableExist : Str → Except Str Bool} {name : Str}
    (ok : ensureTable registry tableExist name = .ok ()) : Configured registry name := by
  unfold ensureTable at ok
  split at ok
  · rename_i system
    exact .inl system
  · dsimp only at ok
    split at ok
    · cases ok
    · rename_i config found
      exact .inr (by rw [found]; rfl)

namespace RouterQueryHook
variable {hook : RouterQueryHook} {seen : Observed} {sql text : Str} {params : Option (List Str)} {id : Nat}

theorem handleRawSql_pooled (pooled : hook.handleRawSql seen sql params = .pooled id text) :
    hook.ensureDatafusionTables seen sql = none ∧
      ∃ shard, hook.router.resolveRoute seen.classified seen.routed sql params = .ok (.single shard) := by
  have forwarded : (hook.handleRawSql seen sql params).forwarded = some text := by
    rw [pooled]
    rfl
  obtain ⟨admitted, ⟨passthrough, _⟩ | ⟨single, _⟩⟩ := handleRawSql_forwarded.mp forwarded
  · unfold handleRawSql handleRoutedSql tryResolveHookRoute at pooled
    rw [admitted, passthrough] at pooled
    cases pooled
  · exact ⟨admitted, single⟩

theorem ensureDatafusionTables_none (admitted : hook.ensureDatafusionTables seen sql = none) :
    ∀ name ∈ (if hasQuestdbExtension sql then (extractFromTable sql).toList
      else extractTableNames hook.router.parser sql), Configured seen.tables.tableRegistry name := by
  unfold ensureDatafusionTables at admitted
  split at admitted
  · cases admitted
  · rename_i ok
    intro name member
    exact ensureTable_configured (forM_ok ok name member)

end RouterQueryHook

/-! ### What is not -/

/-- A table that nothing looks up: in text that the parser reads, one that a nested query names, and in dialect text,
one with another name than the first. -/
def Unchecked (sql : Str) (naming : Place × Str) : Prop :=
  if hasQuestdbExtension sql then extractFromTable sql ≠ some naming.2 else naming.1 = .nested

/-- Every table that the texts of the request name, where they are sent to one shard as they are, is configured. -/
def ForwardsConfigured (read : Str → Option Tree) (h : QuestDbHandlers) (seen : Observed) (request : Request) : Prop :=
  ∀ ask ∈ h.asked request, ∀ id, h.hook.handleRawSql seen ask.1 ask.2 = .pooled id ask.1 →
    ∀ naming ∈ named read ask.1, Configured seen.tables.tableRegistry naming.2

theorem extractTableNames_single {parser : SqlParser} {sql : Str} {query : Query} {select : Select} {name : ObjectName}
    (parsed : parser.parseSql sql = .ok [.query query]) (body : query.body = .select select)
    (source : select.source = [⟨.table name, []⟩]) :
    extractTableNames parser sql = [Federated.objectName name] := by
  simp [extractTableNames, parsed, collectQueryTables, body, collectSelectTables, source, factorNames, dedupNeighbours]

theorem configured_or_unchecked (read : Str → Option Tree) (h : QuestDbHandlers) (seen : Observed)
    (request : Request) (sees : ∀ ask ∈ h.asked request, h.hook.router.parser.SeesTree read ask.1) :
    ∀ ask ∈ h.asked request, ∀ id, h.hook.handleRawSql seen ask.1 ask.2 = .pooled id ask.1 →
      ∀ naming ∈ named read ask.1, Configured seen.tables.tableRegistry naming.2 ∨ Unchecked ask.1 naming := by
  intro ask member id pooled naming names
  obtain ⟨admitted, shard, single⟩ := RouterQueryHook.handleRawSql_pooled pooled
  have checked := RouterQueryHook.ensureDatafusionTables_none admitted
  obtain ⟨table, shardKey, shardKeyParam, classified, _⟩ := DefaultQueryRouter.resolveRoute_single.mp single
  rcases classifySql_routable classified with ⟨dialect, _⟩ | ⟨plain, query, parsed, planned⟩
  · rw [if_pos dialect] at checked
    by_cases first : extractFromTable ask.1 = some naming.2
    · exact .inl (checked naming.2 (by rw [first]; exact List.mem_singleton_self _))
    · refine .inr ?_
      rw [Unchecked, if_pos dialect]
      exact first
  · obtain ⟨noWith, select, _, body, primary, _⟩ := planQuery_single planned
    obtain ⟨name, source, _⟩ := primaryTable_source primary
    have parsed := parseOneStatement_ok parsed
    obtain ⟨t, reads, seen_eq⟩ := sees ask member query parsed
    obtain ⟨nested, namings⟩ := Tree.namings_of_table seen_eq noWith body source
    rw [if_neg (by simp [plain]), extractTableNames_single parsed body source] at checked
    rw [named, reads] at names
    simp only [namings, List.map_cons, List.map_map] at names
    rcases List.mem_cons.mp names with rfl | inside
    · exact .inl (checked _ (List.mem_singleton_self _))
    · obtain ⟨_, _, rfl⟩ := List.mem_map.mp inside
      refine .inr ?_
      rw [Unchecked, if_neg (by simp [plain])]
      rfl

/-- A text that is sent to one shard names configured tables, but for those that nothing looks up. So a request
reaches configured tables only exactly if those are configured. -/
theorem forwarded_tables_configured (read : Str → Option Tree) (h : QuestDbHandlers) (seen : Observed)
    (request : Request) (sees : ∀ ask ∈ h.asked request, h.hook.router.parser.SeesTree read ask.1) :
    (∀ ask ∈ h.asked request, ∀ id, h.hook.handleRawSql seen ask.1 ask.2 = .pooled id ask.1 →
      ∀ naming ∈ named read ask.1, Configured seen.tables.tableRegistry naming.2 ∨ Unchecked ask.1 naming) ∧
    (ForwardsConfigured read h seen request ↔
      ∀ ask ∈ h.asked request, ∀ id, h.hook.handleRawSql seen ask.1 ask.2 = .pooled id ask.1 →
        ∀ naming ∈ named read ask.1, Unchecked ask.1 naming → Configured seen.tables.tableRegistry naming.2) := by
  have either := configured_or_unchecked read h seen request sees
  refine ⟨either, fun all ask member id pooled naming names _ => all ask member id pooled naming names, ?_⟩
  intro unchecked ask member id pooled naming names
  rcases either ask member id pooled naming names with configured | free
  · exact configured
  · exact unchecked ask member id pooled naming names free

/-! ### Texts that name a table besides -/

def tableNamed (name : String) : Source := .table [.identifier name.toList]

/-- `SELECT id FROM secret` -/
def secretIds : Tree where
  body := .select { projection := [.unnamedExpr (columnNamed "id")], source := [], groupBy := .expressions [] }
    [⟨tableNamed "secret", []⟩] []

def pricesOf (condition : Expr) (joins : List Source) (nested : List Tree) : Tree where
  body := .select
    { projection := [.unnamedExpr (columnNamed "price")]
      source := []
      selection := some condition
      groupBy := .expressions [] }
    [⟨tableNamed "trades", joins⟩] nested

def keyIsA : Expr := .binaryOp (columnNamed "symbol") .eq (.value (.singleQuotedString "A".toList))

def keyedText : Str := "SELECT price FROM trades WHERE symbol = 'A'".toList

def nestedText : Str := keyedText ++ " AND id IN (SELECT id FROM secret)".toList

def joinedText : Str := "SELECT price FROM trades JOIN secret ON (id) WHERE symbol = 'A' SAMPLE BY 1h".toList

/-- Three texts and their trees, and a parser that does not know the dialect. -/
def readText (sql : Str) : Option Tree :=
  if sql = keyedText then some (pricesOf keyIsA [] [])
  else if sql = nestedText then
    some (pricesOf (.binaryOp keyIsA .and (.inSubquery (columnNamed "id") secretIds.seen false)) [] [secretIds])
  else if sql = joinedText then some (pricesOf keyIsA [tableNamed "secret"] [])
  else none

def seenParser (shown : Str) : SqlParser where
  parseSql sql :=
    if hasQuestdbExtension sql then .error []
    else match readText sql with
      | some t => .ok [.query t.seen]
      | none => .error []
  display _ := shown

def readingHandlers (shown : Str) : QuestDbHandlers :=
  ⟨⟨⟨seenParser shown, "symbol".toList, false⟩, fun _ => .ok true⟩, fun _ => .ok none⟩

theorem seenParser_seesTree (shown sql : Str) : (seenParser shown).SeesTree readText sql := by
  intro query parsed
  unfold seenParser at parsed
  dsimp only at parsed
  split at parsed
  · cases parsed
  · split at parsed
    · rename_i t read
      exact ⟨t, read, Statement.query.inj (List.cons.inj (Except.ok.inj parsed)).1⟩
    · cases parsed

theorem keyed_tables_configured :
    ForwardsConfigured readText (readingHandlers keyedText) trades (.simple keyedText [.query secretIds.seen]) := by
  refine (forwarded_tables_configured readText (readingHandlers keyedText) trades _
    fun ask _ => seenParser_seesTree keyedText ask.1).2.mpr ?_
  have asks : (readingHandlers keyedText).asked (.simple keyedText [.query secretIds.seen]) = [(keyedText, none)] := by
    decide +kernel
  have names : named readText keyedText = [(.outside, "trades".toList)] := by decide +kernel
  have plain : hasQuestdbExtension keyedText = false := by decide +kernel
  rw [asks]
  intro ask member id pooled naming inside
  obtain rfl := List.mem_singleton.mp member
  rw [names] at inside
  obtain rfl := List.mem_singleton.mp inside
  rw [Unchecked, plain]
  intro impossible
  cases impossible

/-- A nested query and a join of dialect text reach a table that is not configured. -/
theorem unconfigured_table_reached :
    ¬ ForwardsConfigured readText (readingHandlers nestedText) trades (.simple nestedText [.query secretIds.seen]) ∧
    ¬ ForwardsConfigured readText (readingHandlers joinedText) trades (.simple joinedText []) := by
  have missing : ¬ Configured tradesCluster.tableRegistry "secret".toList := by
    unfold Configured
    decide +kernel
  constructor
  · intro configured
    have asks : (nestedText, none) ∈
        (readingHandlers nestedText).asked (.simple nestedText [.query secretIds.seen]) := by decide +kernel
    exact missing (configured _ asks 0 (by decide +kernel) (.nested, "secret".toList) (by decide +kernel))
  · intro configured
    have asks : (joinedText, none) ∈ (readingHandlers joinedText).asked (.simple joinedText []) := by decide +kernel
    exact missing (configured _ asks 0 (by decide +kernel) (.outside, "secret".toList) (by decide +kernel))

end QuestRouter.Protocol
