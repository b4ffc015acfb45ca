import QuestRouter.Ingest.Nautilus
import QuestRouter.Routing.Sql
import QuestRouter.Text.Slices

/-!
# Offsets into the text of a query

The fast path and the reader of object keys search a copy with its ASCII letters folded and cut the original at the
offsets found there. Here both work on bytes, and a cut inside a character is a panic. They never panic, and find
what they find on characters.
-/

namespace QuestRouter.Routing.Sliced
open Text Sql

def extractFromTable (sql : Utf8) : Except Panic (Option Str) := do
  let upper := sql.fold uppercase
  let some fromPos := upper.find (.ofStr " FROM ".toList) | return none
  let rest ← sql.sliceFrom (fromPos + 6)
  let trimmed := rest.trimStart
  let stop := (trimmed.findChar fun c => isWhitespace c || c == ',' || c == ';').getD trimmed.len
  let head ← trimmed.sliceTo stop
  let name := trim head.chars
  return if name.isEmpty || name == ['('] then none else some (lastSegment '.' name)

def skipColumnAndEq (rest : Utf8) : Except Panic (Option Utf8) := do
  let trimmed := rest.trimStart
  if !trimmed.startsWith '=' then return none
  let after ← trimmed.sliceFrom 1
  return some after.trimStart

def parseSqlStringLiteral (s : Utf8) : Except Panic (Option Str) := do
  let trimmed := s.trimStart
  if !trimmed.startsWith '\'' then return none
  let body ← trimmed.sliceFrom 1
  return literalBody body.chars

def afterWhereColumn (sql column : Utf8) : Except Panic (Option Utf8) := do
  let upper := sql.fold uppercase
  let pattern := (Utf8.ofStr "WHERE ".toList).append (column.fold uppercase)
  let some wherePos := upper.find pattern | return none
  let rest ← sql.sliceFrom (wherePos + pattern.len)
  return some rest

def extractShardKeyLiteral (sql column : Utf8) : Except Panic (Option Str) := do
  let some rest ← afterWhereColumn sql column | return none
  let some afterCol ← skipColumnAndEq rest | return none
  parseSqlStringLiteral afterCol

def extractShardKeyParam (sql column : Utf8) : Except Panic (Option Nat) := do
  let some rest ← afterWhereColumn sql column | return none
  let some afterEq ← skipColumnAndEq rest | return none
  let trimmed := afterEq.trimStart
  if !trimmed.startsWith '$' then return none
  let digits ← trimmed.sliceFrom 1
  match parseUsize (digits.chars.takeWhile Char.isDigit) with
  | some (n + 1) => return some n
  | _ => return none

def classifyQuestdbPassthrough (sql shardKeyColumn : Utf8) : Except Panic (Except SqlRouteError RoutePlan) := do
  let some table ← extractFromTable sql
    | return .error (.unsupported (questdbDialectPrefix ++
        " could not extract table from FROM clause".toList))
  if let some literal ← extractShardKeyLiteral sql shardKeyColumn then
    return .ok (.singleShard table (some literal) none)
  if let some index ← extractShardKeyParam sql shardKeyColumn then
    return .ok (.singleShard table none (some index))
  return .error (.unsupported (questdbDialectPrefix ++
    " queries require a shard-key predicate (e.g. WHERE ".toList ++ shardKeyColumn.chars ++
    " = 'X')".toList))

/-- The path through the parser cuts no text itself. -/
def classifySql (parser : SqlParser) (sql shardKeyColumn : Utf8) (registry : TableRegistry)
    (scanAllowOrderBy : Bool) : Except Panic (Except SqlRouteError SqlClassify) := do
  if hasQuestdbExtension sql.chars then
    let plan ← classifyQuestdbPassthrough sql shardKeyColumn
    return plan.map .routable
  else return Routing.classifySql parser sql.chars shardKeyColumn.chars registry scanAllowOrderBy

def instrumentFromPath (key : Utf8) (kind : Ingest.Nautilus.NautilusDataKind) : Except Panic (Option Str) := do
  let marker := Utf8.ofStr (Ingest.Nautilus.marker kind)
  let lower := key.fold lowercase
  let some idx := lower.find marker | return none
  let rest ← key.sliceFrom (idx + marker.len)
  let instrument := rest.chars.takeWhile (· != '/')
  return if instrument.isEmpty then none else some instrument

/-! ### Each cut is between two characters -/

theorem ok_bind {α β : Type} (a : α) (f : α → Except Panic β) : (Except.ok a >>= f) = f a := rfl

theorem ok_map {α β : Type} (f : α → β) (a : α) : f <$> (Except.ok a : Except Panic α) = .ok (f a) := rfl

theorem extractFromTable_eq (s : Str) : extractFromTable (.ofStr s) = .ok (Routing.extractFromTable s) := by
  have six : (asBytes " FROM ".toList).length = 6 := by decide +kernel
  simp only [extractFromTable, Routing.extractFromTable, Utf8.fold_ofStr, Utf8.find_ofStr]
  show _ = Except.ok ((find " FROM ".toList (s.map uppercase.char)).bind _)
  cases found : find " FROM ".toList (s.map uppercase.char) with
  | none => rfl
  | some index =>
    have cut := Utf8.sliceFrom_find uppercase found
    rw [six] at cut
    simp only [Option.map_some, cut, Utf8.trimStart, Utf8.sliceTo_findChar, bind_pure_comp, ok_bind, ok_map,
      Utf8.chars_ofStr]
    rfl

theorem trimStart_ofStr (s : Str) : (Utf8.ofStr s).trimStart = .ofStr (trimStart s) :=
  congrArg (fun t => Utf8.ofStr (trimStart t)) (Utf8.chars_ofStr s)

theorem skipColumnAndEq_eq (s : Str) :
    skipColumnAndEq (.ofStr s) = .ok ((Routing.skipColumnAndEq s).map .ofStr) := by
  rw [skipColumnAndEq, Routing.skipColumnAndEq, trimStart_ofStr]
  rcases Utf8.startsWith_cases '=' (trimStart s) with ⟨rest, shape⟩ | ⟨starts, other⟩
  · rw [shape, Utf8.startsWith_cons, Utf8.sliceFrom_cons (by decide), ok_bind, trimStart_ofStr]
    rfl
  · rw [starts, Bool.not_false, if_pos rfl]
    split
    · rename_i rest shape
      exact (other rest shape).elim
    · rfl

theorem parseSqlStringLiteral_eq (s : Str) :
    parseSqlStringLiteral (.ofStr s) = .ok (Routing.parseSqlStringLiteral s) := by
  rw [parseSqlStringLiteral, Routing.parseSqlStringLiteral, trimStart_ofStr]
  rcases Utf8.startsWith_cases '\'' (trimStart s) with ⟨rest, shape⟩ | ⟨starts, other⟩
  · rw [shape, Utf8.startsWith_cons, Utf8.sliceFrom_cons (by decide), ok_bind, Utf8.chars_ofStr]
    rfl
  · rw [starts, Bool.not_false, if_pos rfl]
    split
    · rename_i rest shape
      exact (other rest shape).elim
    · rfl

theorem afterWhereColumn_eq (s column : Str) :
    afterWhereColumn (.ofStr s) (.ofStr column) = .ok ((Routing.afterWhereColumn s column).map .ofStr) := by
  have width : (asBytes ("WHERE ".toList ++ column.map uppercase.char)).length =
      (Utf8.ofStr ("WHERE ".toList ++ column.map uppercase.char)).len := rfl
  simp only [afterWhereColumn, Utf8.fold_ofStr, Utf8.append_ofStr, Utf8.find_ofStr]
  show _ = Except.ok (((find ("WHERE ".toList ++ column.map uppercase.char) (s.map uppercase.char)).bind _).map _)
  cases found : find ("WHERE ".toList ++ column.map uppercase.char) (s.map uppercase.char) with
  | none => rfl
  | some index =>
    have cut := Utf8.sliceFrom_find uppercase found
    rw [width] at cut
    simp only [Option.map_some, cut, ok_bind]
    rfl

theorem extractShardKeyLiteral_eq (s column : Str) :
    extractShardKeyLiteral (.ofStr s) (.ofStr column) = .ok (Routing.extractShardKeyLiteral s column) := by
  rw [extractShardKeyLiteral, Routing.extractShardKeyLiteral, afterWhereColumn_eq]
  cases Routing.afterWhereColumn s column with
  | none => rfl
  | some rest =>
    simp only [Option.map_some, ok_bind, skipColumnAndEq_eq]
    show _ = Except.ok ((Routing.skipColumnAndEq rest).bind Routing.parseSqlStringLiteral)
    cases Routing.skipColumnAndEq rest with
    | none => rfl
    | some after => exact parseSqlStringLiteral_eq after

theorem extractShardKeyParam_eq (s column : Str) :
    extractShardKeyParam (.ofStr s) (.ofStr column) = .ok (Routing.extractShardKeyParam s column) := by
  rw [extractShardKeyParam, Routing.extractShardKeyParam, afterWhereColumn_eq]
  cases Routing.afterWhereColumn s column with
  | none => rfl
  | some rest =>
    simp only [Option.map_some, ok_bind, skipColumnAndEq_eq]
    show _ = Except.ok ((Routing.skipColumnAndEq rest).bind _)
    cases Routing.skipColumnAndEq rest with
    | none => rfl
    | some after =>
      simp only [Option.map_some, trimStart_ofStr, Option.bind_some]
      rcases Utf8.startsWith_cases '$' (trimStart after) with ⟨digits, shape⟩ | ⟨starts, other⟩
      · rw [shape, Utf8.startsWith_cons, Utf8.sliceFrom_cons (by decide), ok_bind, Utf8.chars_ofStr]
        show _ = Except.ok ((parseUsize (digits.takeWhile Char.isDigit)).bind _)
        rcases parseUsize (digits.takeWhile Char.isDigit) with _ | _ | _ <;> rfl
      · rw [starts, Bool.not_false, if_pos rfl]
        split
        · rename_i rest shape
          exact (other rest shape).elim
        · rfl

theorem classifyQuestdbPassthrough_eq (s column : Str) :
    classifyQuestdbPassthrough (.ofStr s) (.ofStr column) = .ok (Routing.classifyQuestdbPassthrough s column) := by
  rw [classifyQuestdbPassthrough, Routing.classifyQuestdbPassthrough, extractFromTable_eq, extractShardKeyLiteral_eq,
    extractShardKeyParam_eq, Utf8.chars_ofStr]
  rcases Routing.extractFromTable s with _ | table
  · rfl
  rcases Routing.extractShardKeyLiteral s column with _ | literal
  · rcases Routing.extractShardKeyParam s column with _ | index <;> rfl
  · rfl

theorem classifySql_eq (parser : SqlParser) (s column : Str) (registry : TableRegistry) (allow : Bool) :
    classifySql parser (.ofStr s) (.ofStr column) registry allow =
      .ok (Routing.classifySql parser s column registry allow) := by
  rw [classifySql, classifyQuestdbPassthrough_eq, Utf8.chars_ofStr, Utf8.chars_ofStr, ok_bind]
  split
  · rename_i dialect
    rw [Routing.classifySql, if_pos dialect]
    rfl
  · rfl

theorem instrumentFromPath_eq (key : Str) (kind : Ingest.Nautilus.NautilusDataKind) :
    instrumentFromPath (.ofStr key) kind = .ok (Ingest.Nautilus.instrumentFromPath key kind) := by
  simp only [instrumentFromPath, Utf8.fold_ofStr, Utf8.find_ofStr]
  show _ = Except.ok ((find (Ingest.Nautilus.marker kind) (key.map lowercase.char)).bind _)
  cases found : find (Ingest.Nautilus.marker kind) (key.map lowercase.char) with
  | none => rfl
  | some index =>
    have width : (asBytes (Ingest.Nautilus.marker kind)).length = (Utf8.ofStr (Ingest.Nautilus.marker kind)).len := rfl
    have cut := Utf8.sliceFrom_find lowercase found
    rw [width] at cut
    simp only [Option.map_some, cut, ok_bind, Utf8.chars_ofStr]
    rfl

/-- For all texts, column names and keys, whatever characters they have: no cut panics, and each function returns
what it returns on characters. -/
theorem cuts_valid (sql column key rest : Utf8) (kind : Ingest.Nautilus.NautilusDataKind) (parser : SqlParser)
    (registry : TableRegistry) (allow : Bool) :
    extractFromTable sql = .ok (Routing.extractFromTable sql.chars) ∧
    extractShardKeyLiteral sql column = .ok (Routing.extractShardKeyLiteral sql.chars column.chars) ∧
    extractShardKeyParam sql column = .ok (Routing.extractShardKeyParam sql.chars column.chars) ∧
    skipColumnAndEq rest = .ok ((Routing.skipColumnAndEq rest.chars).map .ofStr) ∧
    parseSqlStringLiteral rest = .ok (Routing.parseSqlStringLiteral rest.chars) ∧
    instrumentFromPath key kind = .ok (Ingest.Nautilus.instrumentFromPath key.chars kind) ∧
    classifySql parser sql column registry allow =
      .ok (Routing.classifySql parser sql.chars column.chars registry allow) := by
  rw [← sql.ofStr_chars, ← column.ofStr_chars, ← key.ofStr_chars, ← rest.ofStr_chars]
  simp only [Utf8.chars_ofStr]
  exact ⟨extractFromTable_eq _, extractShardKeyLiteral_eq _ _, extractShardKeyParam_eq _ _, skipColumnAndEq_eq _,
    parseSqlStringLiteral_eq _, instrumentFromPath_eq _ _, classifySql_eq _ _ _ _ _⟩

end QuestRouter.Routing.Sliced
