import QuestRouter.Ilp.TagRule
import QuestRouter.Protocol.IlpDelivery
import QuestRouter.Routing.KeyExtraction
import QuestRouter.Routing.Router

/-!
# Keyed reads and writes

A line is written under the value of its table's key column, which the registry may override. A read
is routed by what its text says of the default key column, whatever the table. The two meet on every
ring exactly when the keys are the same.
-/

namespace QuestRouter.Protocol
open Text Sql Ilp Routing Metadata IlpForwarder

/-! ### The key of a read -/

/-- The key by which a text is routed to one shard. -/
def readKey (router : DefaultQueryRouter) (sql : Str) (params : Option (List Str)) : Option Str :=
  match classifySql router.parser sql router.defaultShardKey ⟨∅⟩ router.scanAllowOrderBy with
  | .ok (.routable (.singleShard table shardKey shardKeyParam)) =>
    some ((keyValue params shardKey shardKeyParam).getD table)
  | _ => none

theorem classify_registry (router : DefaultQueryRouter) (snap : ClusterSnapshot) (sql : Str) :
    router.classify snap sql =
      classifySql router.parser sql router.defaultShardKey ⟨∅⟩ router.scanAllowOrderBy := rfl

theorem resolveRoute_readKey {router : DefaultQueryRouter} {snap routed : ClusterSnapshot} {sql : Str}
    {params : Option (List Str)} {shard : ShardConfig} :
    router.resolveRoute snap routed sql params = .ok (.single shard) ↔
      ∃ key, readKey router sql params = some key ∧ routed.shardForKey key .pg = .ok shard := by
  rw [DefaultQueryRouter.resolveRoute_single]
  constructor
  · rintro ⟨table, shardKey, shardKeyParam, classified, found⟩
    rw [classify_registry] at classified
    exact ⟨_, by rw [readKey, classified], found⟩
  · rintro ⟨key, read, found⟩
    unfold readKey at read
    split at read
    · rename_i table shardKey shardKeyParam classified
      obtain rfl := Option.some.inj read
      exact ⟨table, shardKey, shardKeyParam, classified, found⟩
    · cases read

/-! ### The key of a write -/

/-- The column that the writer takes for the key column of a line's table. -/
def keyColumn (registry : TableRegistry) (default : Str) (line : Line) : Str :=
  registry.shardKeyFor (readPart line.measurement) default

def writeKey (registry : TableRegistry) (default : Str) (line : Line) : Str :=
  shardKeyFromIlpCow line.bytes (keyColumn registry default line)

theorem shardOfLine_writeKey (default : Str) (snap : ClusterSnapshot) (line : Line) :
    shardOfLine default snap line.bytes = snap.shardForKey (writeKey snap.tableRegistry default line) .ilp := by
  rw [shardOfLine, Line.measurement_eq]
  rfl

theorem accepted_shard {out : Outside} {f g : IlpForwarder} {line : Line} {id : Nat}
    (routes : routeAndBuffer out f line.bytes = (.ok (), g))
    (accepted : g.accepted = f.accepted ++ [(id, terminated line.bytes)]) :
    ∃ shard, shard.id = id ∧ (out.snapshot f.routed).shardForKey
      (writeKey (out.snapshot f.routed).tableRegistry out.defaultShardKey line) .ilp = .ok shard := by
  cases lineStep_of routes with
  | blank => simp at accepted
  | @buffered _ shard _ text target connected fits unfailed upstreams sent =>
    rw [sent, List.append_cancel_left_eq] at accepted
    have id : shard.id = id := by simpa using accepted
    exact ⟨shard, id, by rw [← shardOfLine_writeKey]; exact target⟩

/-- On every cluster with this registry whose shards are all healthy, a line that is sent to a shard and
a read that is routed to one shard meet there. -/
def Meet (registry : TableRegistry) (router : DefaultQueryRouter) (line : Line) (sql : Str)
    (params : Option (List Str)) : Prop :=
  ∀ (out : Outside) (f g : IlpForwarder) (id : Nat) (shard : ShardConfig),
    (out.snapshot f.routed).tableRegistry = registry → (out.snapshot f.routed).AllHealthy →
    out.defaultShardKey = router.defaultShardKey →
    routeAndBuffer out f line.bytes = (.ok (), g) →
    g.accepted = f.accepted ++ [(id, terminated line.bytes)] →
    router.resolveRoute (out.snapshot f.routed) (out.snapshot f.routed) sql params = .ok (.single shard) →
    shard.id = id

def willing (default : Str) (snap : ClusterSnapshot) : Outside where
  defaultShardKey := default
  snapshot _ := snap
  connect _ := true
  write _ _ := none
  order _ ids := ids
  order_perm _ ids := .refl ids

theorem isBlank_bytes (line : Line) : isBlank line.bytes = false := by
  have noNewline : newline ∉ line.bytes := by
    rw [newline, Line.bytes, asciiByte_mem_asBytes (by decide)]
    exact line.newline_not_mem
  have whole : line.bytes.takeWhile (· != newline) = line.bytes := by
    rw [List.takeWhile_eq_self_iff]
    intro b member
    rw [bne_iff_ne]
    rintro rfl
    exact noNewline member
  have nonempty : line.bytes ≠ [] := by
    intro empty
    have text : line.text = [] := asBytes_injective empty
    simp [Line.text, tagText] at text
  rw [isBlank, whole]
  simpa using nonempty

theorem willing_accepts (default : Str) {snap : ClusterSnapshot} {line : Line} {shard : ShardConfig}
    (target : snap.shardForKey (writeKey snap.tableRegistry default line) .ilp = .ok shard) :
    ∃ g, routeAndBuffer (willing default snap) {} line.bytes = (.ok (), g) ∧
      g.accepted = [(shard.id, terminated line.bytes)] := by
  rw [← shardOfLine_writeKey] at target
  rcases routes : routeAndBuffer (willing default snap) {} line.bytes with ⟨r, g⟩
  have next : nextShard (willing default snap) {} line.bytes = .ok shard := target
  cases lineStep_of routes with
  | blank blank => rw [isBlank_bytes] at blank; cases blank
  | unrouted text failed => rw [next] at failed; cases failed
  | refused text found absent refused => cases refused
  | broken text found connected fails => cases fails.2
  | @buffered _ found _ text same connected fits unfailed upstreams sent =>
    rw [next] at same
    obtain rfl := Except.ok.inj same
    exact ⟨g, rfl, sent⟩

/-- They meet exactly when the key of the read is that of the write. -/
theorem meet_iff {registry : TableRegistry} {router : DefaultQueryRouter} {line : Line} {sql : Str}
    {params : Option (List Str)} :
    Meet registry router line sql params ↔
      ∀ key, readKey router sql params = some key → writeKey registry router.defaultShardKey line = key := by
  constructor
  · intro meet key read
    by_contra different
    have written := sendingKey_shardForKey (writeKey registry router.defaultShardKey line)
      (writeKey registry router.defaultShardKey line) registry .ilp
    rw [if_pos rfl] at written
    obtain ⟨g, routes, accepted⟩ := willing_accepts router.defaultShardKey written
    have found := sendingKey_shardForKey (writeKey registry router.defaultShardKey line) key registry .pg
    rw [if_neg (Ne.symm different)] at found
    have same := meet _ {} g 1 shardA rfl (sendingKey_allHealthy _ registry) rfl routes accepted
      (resolveRoute_readKey.mpr ⟨key, read, found⟩)
    exact absurd same (by decide)
  · intro same out f g id shard registered healthy default routes accepted resolved
    obtain ⟨key, read, found⟩ := resolveRoute_readKey.mp resolved
    obtain ⟨target, rfl, written⟩ := accepted_shard routes accepted
    rw [registered, default, same key read] at written
    rw [ClusterSnapshot.shardForKey_unique healthy found written]

/-! ### The row of a line -/

section Rows
variable {N : Type} [DecidableEq N]

omit [DecidableEq N] in
theorem tag_congr (line : Line) {x y : Str} (same : eqIgnoreAsciiCase x y = true) : line.tag x = line.tag y := by
  have agree : (fun entry : Str × Str => eqIgnoreAsciiCase entry.1 x) = fun entry => eqIgnoreAsciiCase entry.1 y := by
    funext entry
    rw [Bool.eq_iff_iff]
    exact ⟨fun h => eqIgnoreAsciiCase_trans h same,
      fun h => eqIgnoreAsciiCase_trans h (by rwa [eqIgnoreAsciiCase_comm])⟩
  rw [Line.tag, Line.tag, agree]

/-- The row that a line writes. Its tags are text columns; the fields and all other columns are given. -/
def rowOf (line : Line) (others : Env N) : Env N :=
  { others with
    column := fun x => match line.tag x with
      | some value => .text value
      | none => others.column x
    column_congr := fun same => by rw [tag_congr line same, others.column_congr same] }

/-- `column = 'text'` conditions, joined by `AND`, in parentheses or not. -/
inductive Equalities : Expr → Prop
  | column (x text : Str) : Equalities (.binaryOp (.identifier x) .eq (.value (.singleQuotedString text)))
  | qualified (parts : List Str) (text : Str) :
      Equalities (.binaryOp (.compoundIdentifier parts) .eq (.value (.singleQuotedString text)))
  | and {left right : Expr} (l : Equalities left) (r : Equalities right) : Equalities (.binaryOp left .and right)
  | nested {e : Expr} (inside : Equalities e) : Equalities (.nested e)

/-- The text parses as a `SELECT` from one table under this condition. -/
def SelectsWhere (parser : SqlParser) (sql : Str) (e : Expr) : Prop :=
  hasQuestdbExtension sql = false ∧ ∃ query select name,
    parseOneStatement parser sql = .ok (.query query) ∧ query.withClause = false ∧
    query.body = .select select ∧ select.source = [⟨.table name, []⟩] ∧ select.selection = some e

/-- An outermost conjunct, outside parentheses, compares this column. -/
def ComparesColumn (e : Expr) (column : Str) : Prop :=
  ∃ conj ∈ e.conjuncts, comparedWith column conj ≠ none

omit [DecidableEq N] in
theorem equalities_conjunct {e conj : Expr} (equalities : Equalities e) (member : conj ∈ e.conjuncts)
    {column : Str} {operand : Expr} (compared : comparedWith column conj = some operand) :
    ∃ text, operand = .value (.singleQuotedString text) := by
  induction equalities with
  | column x text =>
    obtain rfl := List.mem_singleton.mp member
    rw [comparedWith] at compared
    split at compared
    · exact ⟨text, (Option.some.inj compared).symm⟩
    · cases compared
  | qualified parts text =>
    obtain rfl := List.mem_singleton.mp member
    rw [comparedWith] at compared
    split at compared
    · exact ⟨text, (Option.some.inj compared).symm⟩
    · cases compared
  | and l r left right =>
    rcases List.mem_append.mp member with inside | inside
    · exact left inside
    · exact right inside
  | nested =>
    obtain rfl := List.mem_singleton.mp member
    cases compared

theorem keyOperand_equalities {e : Expr} (equalities : Equalities e) {column : Str} :
    (∃ text, keyOperand e column = some (.value (.singleQuotedString text))) ↔ ComparesColumn e column := by
  constructor
  · rintro ⟨text, operand⟩
    obtain ⟨conj, member, compared, _⟩ := keyOperand_givesKey operand
    exact ⟨conj, member, by simp [compared]⟩
  · rintro ⟨conj, member, compares⟩
    obtain ⟨operand, compared⟩ := Option.ne_none_iff_exists'.mp compares
    have some : (keyOperand e column).isSome = true := by
      obtain ⟨text, rfl⟩ := equalities_conjunct equalities member compared
      rw [keyOperand, List.findSome?_isSome_iff]
      exact ⟨conj, member, by simp [compared, givesKey, valueToString]⟩
    obtain ⟨found, operand⟩ := Option.isSome_iff_exists.mp some
    obtain ⟨_, inside, compared, _⟩ := keyOperand_givesKey operand
    obtain ⟨text, rfl⟩ := equalities_conjunct equalities inside compared
    exact ⟨text, operand⟩

theorem readKey_selects {router : DefaultQueryRouter} {sql : Str} {e : Expr}
    (selects : SelectsWhere router.parser sql e) (equalities : Equalities e) {env : Env N} (holds : env.Holds e)
    (params : Option (List Str)) (key : Str) :
    readKey router sql params = some key ↔
      ComparesColumn e router.defaultShardKey ∧ env.column router.defaultShardKey = .text key := by
  obtain ⟨plain, query, select, name, parsed, noWith, body, source, condition⟩ := selects
  constructor
  · intro read
    unfold readKey at read
    split at read
    · rename_i table shardKey shardKeyParam classified
      rcases classifySql_routable classified with ⟨dialect, _⟩ | ⟨_, query', parsed', planned⟩
      · rw [plain] at dialect
        cases dialect
      rw [parsed] at parsed'
      cases parsed'
      obtain ⟨_, select', e', body', _, condition', found, rfl, rfl⟩ := planQuery_single planned
      rw [body] at body'
      cases body'
      rw [condition] at condition'
      cases condition'
      cases operand : keyOperand e router.defaultShardKey with
      | none =>
        rw [shardKeyFromWhere_eq, operand] at found
        cases found
      | some operand' =>
        obtain ⟨conj, member, compared, _⟩ := keyOperand_givesKey operand
        obtain ⟨text, rfl⟩ := equalities_conjunct equalities member compared
        rw [shardKeyFromWhere_eq, operand] at read
        obtain rfl : text = key := Option.some.inj read
        exact ⟨⟨conj, member, by simp [compared]⟩, (holds_keyOperand env operand holds).1⟩
    · cases read
  · rintro ⟨compares, column⟩
    obtain ⟨text, operand⟩ := (keyOperand_equalities equalities).mpr compares
    have same : env.column router.defaultShardKey = .text text := (holds_keyOperand env operand holds).1
    rw [column] at same
    obtain rfl : key = text := by simpa using same
    have matched : shardKeyFromWhere e router.defaultShardKey = { literal := some key } := by
      rw [shardKeyFromWhere_eq, operand]
      rfl
    have planned : planQuery query sql router.defaultShardKey ⟨∅⟩ router.scanAllowOrderBy =
        .ok (.singleShard (objectName name) (some key) none) := by
      simp [planQuery, noWith, body, source, condition, primaryTable, matched, ShardKeyMatch.found, bind,
        Except.bind, pure, Except.pure]
    have classified : classifySql router.parser sql router.defaultShardKey ⟨∅⟩ router.scanAllowOrderBy =
        .ok (.routable (.singleShard (objectName name) (some key) none)) := by
      simp [classifySql, plain, parsed, planned, isPassthroughStatement, bind, Except.bind, Except.map]
    rw [readKey, classified]
    rfl

def searchedKey (sql column : Str) (params : Option (List Str)) : Option Str :=
  (extractFromTable sql).bind fun table =>
    (extractShardKeyLiteral sql column).or
      ((extractShardKeyParam sql column).map fun idx => (boundParam params idx).getD table)

omit [DecidableEq N] in
theorem readKey_searched {router : DefaultQueryRouter} {sql : Str} (dialect : hasQuestdbExtension sql = true)
    (params : Option (List Str)) :
    readKey router sql params = searchedKey sql router.defaultShardKey params := by
  rw [readKey, classifySql, if_pos dialect, searchedKey, classifyQuestdbPassthrough]
  cases extractFromTable sql with
  | none => rfl
  | some table =>
    cases extractShardKeyLiteral sql router.defaultShardKey with
    | some literal => rfl
    | none => cases extractShardKeyParam sql router.defaultShardKey <;> rfl

/-- A read and a write of a row meet exactly when what the read takes for the key is the key that the
line of the row is written under. -/
theorem meet_readsAs_iff (registry : TableRegistry) (router : DefaultQueryRouter) (line : Line) (sql : Str)
    (params : Option (List Str)) (others : Env N)
    (readable : line.Unescaped ∨ (keyColumn registry router.defaultShardKey line).getLast? ≠ some '\\') :
    (∀ e, SelectsWhere router.parser sql e → Equalities e → (rowOf line others).Holds e →
      (Meet registry router line sql params ↔
        (ComparesColumn e router.defaultShardKey → ∀ key,
          (rowOf line others).column router.defaultShardKey = .text key →
          line.ReadsAs (keyColumn registry router.defaultShardKey line) key))) ∧
    (hasQuestdbExtension sql = true →
      (Meet registry router line sql params ↔
        ∀ key, searchedKey sql router.defaultShardKey params = some key →
          line.ReadsAs (keyColumn registry router.defaultShardKey line) key)) := by
  constructor
  · intro e selects equalities holds
    rw [meet_iff]
    constructor
    · intro same compares key column
      rw [← Line.shardKey_readsAs readable]
      exact same key ((readKey_selects selects equalities holds params key).mpr ⟨compares, column⟩)
    · intro reads key read
      obtain ⟨compares, column⟩ := (readKey_selects selects equalities holds params key).mp read
      rw [writeKey, Line.shardKey_readsAs readable]
      exact reads compares key column
  · intro dialect
    rw [meet_iff, readKey_searched dialect]
    constructor
    · intro same key read
      rw [← Line.shardKey_readsAs readable]
      exact same key read
    · intro reads key read
      rw [writeKey, Line.shardKey_readsAs readable]
      exact reads key read

end Rows

/-! A table with a key column of its own. -/

/-- `trades,symbol=A,venue=X price=1` -/
def venueLine : Line where
  measurement := "trades".toList
  tags := [("symbol".toList, "A".toList), ("venue".toList, "X".toList)]
  fields := "price=1".toList
  oneLine := by decide

theorem venueLine_unescaped : venueLine.Unescaped := ⟨by decide, by decide, by decide⟩

def symbolIsA : Expr := .binaryOp (.identifier "symbol".toList) .eq (.value (.singleQuotedString "A".toList))

def keyedQuery : Select where
  projection := [.wildcard]
  groupBy := .expressions []
  source := [⟨.table [.identifier "trades".toList], []⟩]
  selection := some symbolIsA

/-- A parser that reads every text as `SELECT * FROM trades WHERE symbol = 'A'`. -/
def keyedParser : SqlParser where
  parseSql _ := .ok [.query { body := .select keyedQuery }]
  display _ := []

def keyedRouter : DefaultQueryRouter := ⟨keyedParser, "symbol".toList, false⟩

def keyedSelect : Str := "SELECT * FROM trades WHERE symbol = 'A'".toList

theorem keyedSelect_selects : SelectsWhere keyedParser keyedSelect symbolIsA :=
  ⟨by decide +kernel, { body := .select keyedQuery }, keyedQuery, _, rfl, rfl, rfl, rfl, rfl⟩

theorem keyedSelect_meets : Meet (.fromConfig []) keyedRouter venueLine keyedSelect none := by
  have iff := (meet_readsAs_iff (.fromConfig []) keyedRouter venueLine keyedSelect none venueRow
    (.inl venueLine_unescaped)).1 symbolIsA keyedSelect_selects (.column _ _) (by decide)
  apply iff.mpr
  intro _ key column
  obtain rfl : "A".toList = key := Val.text.inj column
  exact (Line.readsAs_unescaped venueLine_unescaped _ _).mpr (by decide)

/-- The table's key column is `venue`, and the read of the row by its `symbol` goes elsewhere. -/
theorem overridden_key_misses :
    SelectsWhere keyedParser keyedSelect symbolIsA ∧ Equalities symbolIsA ∧
      (rowOf venueLine venueRow).Holds symbolIsA ∧
      ¬ Meet (.fromConfig [⟨"trades".toList, true, some "venue".toList⟩]) keyedRouter venueLine keyedSelect none := by
  have holds : (rowOf venueLine venueRow).Holds symbolIsA := by decide
  refine ⟨keyedSelect_selects, .column _ _, holds, ?_⟩
  rw [meet_iff]
  intro same
  have read : readKey keyedRouter keyedSelect none = some "A".toList :=
    (readKey_selects keyedSelect_selects (.column _ _) holds none "A".toList).mpr
      ⟨⟨symbolIsA, List.mem_singleton.mpr rfl, by decide⟩, rfl⟩
  exact absurd (same "A".toList read) (by decide +kernel)

end QuestRouter.Protocol
