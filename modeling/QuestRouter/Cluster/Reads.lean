import QuestRouter.Cluster.Writes
import QuestRouter.Metadata.KeyedRouting
import QuestRouter.Protocol.PgHook

/-!
# Keyed reads of what was written

A read that compares the key column with a text is sent to the primary shard of that text. While that shard is
up, every line with this key was written to it, whatever happened to the other shards, so it answers the read as
one database with everything that was written would.
-/

namespace QuestRouter.Cluster
open Text Sql Ilp Routing Metadata Protocol IlpForwarder

/-! ### The key of a line -/

def lineKey (registry : TableRegistry) (default : Str) (line : Bytes) : Str :=
  shardKeyFromIlpCow line (registry.shardKeyFor ((measurementFromIlpBytes line).getD []) default)

theorem shardOfLine_lineKey (default : Str) (snap : ClusterSnapshot) (line : Bytes) :
    shardOfLine default snap line = snap.shardForKey (lineKey snap.tableRegistry default line) .ilp := rfl

theorem firstLine_terminated {body : Bytes} (absent : newline ∉ body) : firstLine (body ++ [newline]) = body := by
  rw [firstLine, memchr_append absent]
  simp

theorem firstLine_of_not_mem {body : Bytes} (absent : newline ∉ body) : firstLine body = body := by
  rw [firstLine, memchr_eq_none.mpr absent]
  simp

/-- The newline that ends a line is not looked at. -/
theorem lineKey_terminated {body : Bytes} (absent : newline ∉ body) (nonempty : body ≠ [])
    (registry : TableRegistry) (default : Str) :
    lineKey registry default (body ++ [newline]) = lineKey registry default body := by
  have key : ∀ tag, shardKeyFromIlpCow (body ++ [newline]) tag = shardKeyFromIlpCow body tag := by
    intro tag
    simp [shardKeyFromIlpCow, firstLine_terminated absent, firstLine_of_not_mem absent, nonempty]
  have measurement : measurementFromIlpBytes (body ++ [newline]) = measurementFromIlpBytes body := by
    simp [measurementFromIlpBytes, firstLine_terminated absent, firstLine_of_not_mem absent, nonempty]
  rw [lineKey, lineKey, key, measurement]

/-- Where the row of the line has a text in the key column, that is the key of the line. -/
def Keyed (reader : LineReader) (registry : TableRegistry) (column : Str) (line : Bytes) : Prop :=
  ∀ name row k, reader line = some (name, row) → row.column column = .text k → lineKey registry column line = k

/-- A line without escapes that has its key in a tag, unless its row has none, and whose table has no key column
of its own. It is read as a row with its tags. -/
structure Tagged (reader : LineReader) (registry : TableRegistry) (column : Str) (line : Bytes) : Prop where
  written : ∃ (text : Line) (others : Record) (name : ObjectName),
    line = text.bytes ++ [newline] ∧ text.Unescaped ∧
    ((text.tag column).isSome = true ∨ ∀ k, others.column column ≠ .text k) ∧
    keyColumn registry column text = column ∧
    reader line = some (name, tagRow text others)

theorem Tagged.keyed {reader : LineReader} {registry : TableRegistry} {column : Str} {line : Bytes}
    (tagged : Tagged reader registry column line) : Keyed reader registry column line := by
  obtain ⟨text, others, name, rfl, unescaped, tag, own, read⟩ := tagged.written
  intro name' row k same holds
  rw [read] at same
  obtain ⟨rfl, rfl⟩ := Prod.mk.inj (Option.some.inj same)
  have absent : newline ∉ text.bytes := by
    rw [newline, Line.bytes, asciiByte_mem_asBytes (by decide)]
    exact text.newline_not_mem
  have nonempty : text.bytes ≠ [] := by
    intro empty
    have blank := isBlank_bytes text
    rw [empty] at blank
    cases blank
  have key : lineKey registry column text.bytes = text.keyOf column := by
    rw [lineKey, Line.measurement_eq]
    show shardKeyFromIlpCow text.bytes (keyColumn registry column text) = _
    rw [own, Line.shardKey_of_unescaped unescaped]
  rw [lineKey_terminated absent nonempty, key, Line.keyOf]
  show (text.tag column).getD column = k
  dsimp only [tagRow] at holds
  cases found : text.tag column with
  | some value =>
    rw [found] at holds
    exact Val.text.inj holds
  | none =>
    rw [found] at holds tag
    rcases tag with some | without
    · cases some
    · exact (without k holds).elim

/-! ### The rows of a key -/

/-- The connection routes like the reader, and the shard stays up for writes. -/
structure Agrees (snap : ClusterSnapshot) (column : Str) (shard : ShardConfig) (out : Outside) : Prop where
  column : out.defaultShardKey = column
  ring : ∀ n, (out.snapshot n).ring = snap.ring
  tableRegistry : ∀ n, (out.snapshot n).tableRegistry = snap.tableRegistry
  up : ∀ n, (out.snapshot n).isExcluded shard.id .ilp = false

theorem Agrees.goesTo {snap : ClusterSnapshot} {column : Str} {shard : ShardConfig} {out : Outside}
    (agrees : Agrees snap column shard out) {line : Bytes}
    (primary : snap.ring.shardByKey (lineKey snap.tableRegistry column line) = some shard) {n : Nat}
    (routable : ∃ target, shardOfLine out.defaultShardKey (out.snapshot n) line = .ok target) :
    goesTo out n line shard.id = true := by
  obtain ⟨target, found⟩ := routable
  have routed := found
  rw [shardOfLine_lineKey, agrees.column, agrees.tableRegistry n] at routed
  obtain ⟨_, chosen⟩ := ClusterSnapshot.shardForKey_ok.mp routed
  rw [← agrees.ring n] at primary
  rw [ShardRing.shardByKeyFiltered_primary primary (agrees.up n)] at chosen
  obtain rfl := Option.some.inj chosen
  rw [IlpForwarder.goesTo, found]
  exact beq_self_eq_true _

/-- Rows that are looked for are kept where their lines are sent. -/
theorem filter_routedTo {out : Outside} {id : Nat} {reader : LineReader} {name : ObjectName} {keep : Record → Bool}
    {n : Nat} {lines : List Bytes} (routable : Routable out n lines)
    (goes : ∀ n, ∀ line ∈ lines, (∃ target, shardOfLine out.defaultShardKey (out.snapshot n) line = .ok target) →
      ∀ row, rowOfLine reader name line = some row → keep row = true → goesTo out n line id = true) :
    (rowsOf reader (routedTo out id n lines) name).filter keep = (rowsOf reader lines name).filter keep := by
  induction lines generalizing n with
  | nil => rfl
  | cons line lines ih =>
    obtain ⟨target, rest⟩ := routable
    have later := ih rest fun n line member => goes n line (List.mem_cons_of_mem _ member)
    have first := goes n line List.mem_cons_self target
    unfold rowsOf at later ⊢
    rw [routedTo]
    cases read : rowOfLine reader name line with
    | none =>
      rw [List.filterMap_cons_none read]
      split
      · rw [List.filterMap_cons_none read]
        exact later
      · exact later
    | some row =>
      rw [List.filterMap_cons_some read]
      split
      · rw [List.filterMap_cons_some read, List.filter_cons, List.filter_cons, later]
      · rename_i elsewhere
        have dropped : ¬ keep row = true := fun kept => elsewhere (first row read kept)
        rw [List.filter_cons_of_neg dropped]
        exact later

section
variable {m : Meaning} {reader : LineReader} {conns : List Connection} {snap : ClusterSnapshot} {column k : Str}
  {shard : ShardConfig} {q : Query} {select : Select} {e operand : Expr} {name : ObjectName}

/-- The rows that the condition leaves are those of the shard. -/
theorem filtered_written (forwarded : ∀ c ∈ conns, c.Forwarded)
    (agrees : ∀ c ∈ conns, Agrees snap column shard c.out)
    (keyed : ∀ c ∈ conns, ∀ line ∈ c.lines, Keyed reader snap.tableRegistry column line)
    (primary : snap.ring.shardByKey k = some shard) (body : q.body = .select select)
    (source : select.source = [⟨.table name, []⟩]) (alone : select.sourceClauses = [])
    (condition : select.selection = some e) (compared : keyOperand e column = some operand)
    (literal : IsStringLiteral operand k)
    (same : SameForKey m q column k (shardRows reader conns shard.id) (writtenRows reader conns)) :
    m.filtered (writtenRows reader conns) select = m.filtered (shardRows reader conns shard.id) select := by
  have alike : ∀ row, m.passes (some e) ⟨writtenRows reader conns, [], [], row⟩ =
      m.passes (some e) ⟨shardRows reader conns shard.id, [], [], row⟩ :=
    same.passes compared literal body condition
  simp only [Meaning.filtered, sourceRows_table m source alone, condition, alike]
  rw [writtenRows, shardRows, List.filter_flatMap, List.filter_flatMap]
  apply List.flatMap_congr
  intro c member
  rw [(forwarded c member).lines_sentTo]
  symm
  apply filter_routedTo (forwarded c member).routable
  intro n line inside routable row read passes
  obtain ⟨⟨table, row'⟩, known, named⟩ := Option.bind_eq_some_iff.mp read
  have here : row' = row := by
    dsimp only at named
    split at named
    · exact Option.some.inj named
    · cases named
  -- What passes has the text in its key column, so its line has the text as its key.
  have holds : row.column column = .text k := key_of_passes compared literal passes
  have key := keyed c member line inside table row' k known (here ▸ holds)
  exact (agrees c member).goesTo (key.symm ▸ primary) routable

end

theorem readKey_literal {router : DefaultQueryRouter} {sql key k : Str} {params : Option (List Str)} {q : Query}
    {select : Select} {e operand : Expr} (plain : hasQuestdbExtension sql = false)
    (parsed : parseOneStatement router.parser sql = .ok (.query q)) (body : q.body = .select select)
    (condition : select.selection = some e) (compared : keyOperand e router.defaultShardKey = some operand)
    (literal : IsStringLiteral operand k) (read : readKey router sql params = some key) :
    key = k ∧ q.withClause = false ∧ ∃ name, select.source = [⟨.table name, []⟩] := by
  unfold readKey at read
  split at read
  · rename_i table shardKey shardKeyParam classified
    rcases classifySql_routable classified with ⟨dialect, _⟩ | ⟨_, q', parsed', planned⟩
    · rw [plain] at dialect
      cases dialect
    obtain rfl : q = q' := Statement.query.inj (Except.ok.inj (parsed.symm.trans parsed'))
    obtain ⟨noWith, select', e', body', primary, condition', _, rfl, rfl⟩ := planQuery_single planned
    obtain rfl : select = select' := SetExpr.select.inj (body.symm.trans body')
    obtain rfl : e = e' := Option.some.inj (condition.symm.trans condition')
    have matched : shardKeyFromWhere e router.defaultShardKey = { literal := some k } := by
      rw [shardKeyFromWhere_eq, compared]
      obtain ⟨v, rfl, rfl | rfl | rfl⟩ := literal <;> rfl
    rw [matched] at read
    obtain ⟨name, source, _⟩ := primaryTable_source primary
    exact ⟨(Option.some.inj read).symm, noWith, name, source⟩
  · cases read

theorem handleRawSql_toShard {hook : RouterQueryHook} {seen : Observed} {sql text : Str} {id : Nat}
    {params : Option (List Str)} (handled : hook.handleRawSql seen sql params = .pooled id text) :
    text = RouterQueryHook.backendSql sql params ∧
      ∃ shard, shard.id = id ∧ hook.router.resolveRoute seen.classified seen.routed sql params = .ok (.single shard) := by
  unfold RouterQueryHook.handleRawSql at handled
  split at handled
  · cases handled
  unfold RouterQueryHook.handleRoutedSql RouterQueryHook.tryResolveHookRoute at handled
  cases resolved : hook.router.resolveRoute seen.classified seen.routed sql params with
  | error e =>
    rw [resolved] at handled
    cases e <;> dsimp only at handled <;> (repeat' split at handled) <;> simp_all
  | ok route =>
    rw [resolved] at handled
    cases route <;> simp_all

/-- While the primary shard of a text is up, a read that compares the key column with this text is sent to it, as it
is, and has there the answers that it has over everything that was written. -/
theorem keyedRead_answers {m : Meaning} {reader : LineReader} {conns : List Connection} {hook : RouterQueryHook}
    {seen : Observed} {sql text k : Str} {id : Nat} {shard : ShardConfig} {q : Query} {select : Select}
    {e operand : Expr} (forwarded : ∀ c ∈ conns, c.Forwarded)
    (agrees : ∀ c ∈ conns, Agrees seen.routed hook.router.defaultShardKey shard c.out)
    (tagged : ∀ c ∈ conns, ∀ line ∈ c.lines,
      Tagged reader seen.routed.tableRegistry hook.router.defaultShardKey line)
    (primary : seen.routed.ring.shardByKey k = some shard) (up : seen.routed.isExcluded shard.id .pg = false)
    (plain : hasQuestdbExtension sql = false)
    (parsed : parseOneStatement hook.router.parser sql = .ok (.query q)) (body : q.body = .select select)
    (alone : select.sourceClauses = []) (condition : select.selection = some e)
    (compared : keyOperand e hook.router.defaultShardKey = some operand) (literal : IsStringLiteral operand k)
    (same : SameForKey m q hook.router.defaultShardKey k (shardRows reader conns shard.id) (writtenRows reader conns))
    (handled : hook.handleRawSql seen sql none = .pooled id text) :
    id = shard.id ∧ text = sql ∧ ∀ answer,
      m.IsAnswer (shardRows reader conns id) q answer ↔ m.IsAnswer (writtenRows reader conns) q answer := by
  obtain ⟨rfl, target, rfl, resolved⟩ := handleRawSql_toShard handled
  obtain ⟨key, read, found⟩ := resolveRoute_readKey.mp resolved
  obtain ⟨rfl, noWith, name, source⟩ := readKey_literal plain parsed body condition compared literal read
  have chosen := (ClusterSnapshot.shardForKey_ok.mp found).2
  rw [ShardRing.shardByKeyFiltered_primary primary up] at chosen
  obtain rfl := Option.some.inj chosen
  refine ⟨rfl, rfl, fun answer => ?_⟩
  have keyed : ∀ c ∈ conns, ∀ line ∈ c.lines, Keyed reader seen.routed.tableRegistry hook.router.defaultShardKey line :=
    fun c member line inside => (tagged c member line inside).keyed
  have rows := filtered_written forwarded agrees keyed primary body source alone condition compared literal same
  exact (same.isAnswer compared literal noWith body condition rows).symm

def tradesHook : RouterQueryHook := ⟨keyedRouter, fun _ => .ok true⟩

/-- The read is made when the ILP port of the second shard is down. -/
def seenFailing : Observed := ⟨tradesCluster, tradesCluster, MetadataActor.run tradesCluster [⟨1, false, true⟩]⟩

theorem tradeLines_tagged {known : Line × ℚ} (member : known ∈ tradeLines) :
    Tagged readTrades tradesCluster.tableRegistry "symbol".toList (known.1.bytes ++ [newline]) := by
  have each : ∀ known ∈ tradeLines, (',' ∉ known.1.measurement ∧ known.1.tags ≠ [] ∧
      ∀ entry ∈ known.1.tags, Plain entry.1 ∧ Plain entry.2) ∧ (known.1.tag "symbol".toList).isSome = true ∧
      keyColumn tradesCluster.tableRegistry "symbol".toList known.1 = "symbol".toList := by decide +kernel
  obtain ⟨unescaped, tag, own⟩ := each known member
  exact ⟨known.1, _, _, rfl, unescaped, .inl tag, own, readTrades_known member⟩

theorem failingOver_agrees : Agrees seenFailing.routed "symbol".toList shardA failingOver where
  column := rfl
  ring n := by
    show (if n < 2 then _ else _ : ClusterSnapshot).ring = _
    split <;> rfl
  tableRegistry n := by
    show (if n < 2 then _ else _ : ClusterSnapshot).tableRegistry = _
    split <;> rfl
  up n := by
    show (if n < 2 then _ else _ : ClusterSnapshot).isExcluded 0 .ilp = false
    split <;> rfl

theorem keyedRead_trades :
    Meaning.plain.IsAnswer (shardRows readTrades [writesB, writesBoth] 0) { body := .select keyedQuery }
        [[.text "A".toList, .number 1], [.text "A".toList, .number 3]] ↔
      Meaning.plain.IsAnswer (writtenRows readTrades [writesB, writesBoth]) { body := .select keyedQuery }
        [[.text "A".toList, .number 1], [.text "A".toList, .number 3]] := by
  have readIds : ∀ shard ∈ [shardA, shardB], shard.id ∈ [0, 1] := by decide
  have forwarded : ∀ c ∈ [writesB, writesBoth], c.Forwarded :=
    fun c member => (writes_covered readIds c member).1
  have agrees : ∀ c ∈ [writesB, writesBoth], Agrees seenFailing.routed "symbol".toList shardA c.out := by
    intro c member
    rcases List.mem_pair.mp member with rfl | rfl
    · exact failingOver_agrees
    · exact ⟨rfl, fun _ => rfl, fun _ => rfl, fun _ => rfl⟩
  have tagged : ∀ c ∈ [writesB, writesBoth], ∀ line ∈ c.lines,
      Tagged readTrades tradesCluster.tableRegistry "symbol".toList line := by
    have known : ∀ c ∈ [writesB, writesBoth], ∀ line ∈ c.lines,
        line ∈ tradeLines.map fun known => known.1.bytes ++ [newline] := by decide +kernel
    intro c member line inside
    obtain ⟨trade, listed, rfl⟩ := List.mem_map.mp (known c member line inside)
    exact tradeLines_tagged listed
  have same : SameForKey Meaning.plain { body := .select keyedQuery } "symbol".toList "A".toList
      (shardRows readTrades [writesB, writesBoth] shardA.id) (writtenRows readTrades [writesB, writesBoth]) := by
    intro q member
    rw [show querySubqueries { body := .select keyedQuery } = [] from rfl] at member
    cases member
  have primary : seenFailing.routed.ring.shardByKey "A".toList = some shardA := by decide +kernel
  have plain : hasQuestdbExtension keyedSelect = false := by decide +kernel
  have parsed : parseOneStatement tradesHook.router.parser keyedSelect =
    .ok (.query { body := .select keyedQuery }) := rfl
  have literal : IsStringLiteral (.value (.singleQuotedString "A".toList)) "A".toList := ⟨_, rfl, .inl rfl⟩
  have handled : tradesHook.handleRawSql seenFailing keyedSelect none = .pooled 0 keyedSelect := by decide +kernel
  exact (keyedRead_answers forwarded agrees tagged primary rfl plain parsed rfl rfl rfl rfl literal same handled).2.2 _

end QuestRouter.Cluster
