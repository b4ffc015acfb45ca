import QuestRouter.Routing.Error
import QuestRouter.Routing.Plan

/-!
# QuestDB dialect fast path

`SAMPLE BY` and `LATEST ON` are not in the grammar of the SQL parser. A text that contains one of
them is classified by substring search over its upper-cased copy.
-/

namespace QuestRouter.Routing
open Text

def questdbDialectPrefix : Str := "questdb dialect:".toList

def hasQuestdbExtension (sql : Str) : Bool :=
  let upper := toAsciiUppercase sql
  contains upper "SAMPLE BY".toList || contains upper "LATEST ON".toList

/-- The table name after the first ` FROM `, without a schema qualifier. -/
def extractFromTable (sql : Str) : Option Str := do
  let upper := toAsciiUppercase sql
  let fromPos ← find " FROM ".toList upper
  let trimmed := trimStart (sql.drop (fromPos + 6))
  let name := trim (trimmed.takeWhile fun c => !(isWhitespace c || c == ',' || c == ';'))
  if name.isEmpty || name == ['('] then none else some (lastSegment '.' name)

def skipColumnAndEq (rest : Str) : Option Str :=
  match trimStart rest with
  | '=' :: after => some (trimStart after)
  | _ => none

/-- The rest of a string literal whose opening quote has been read. -/
def literalBody : Str → Option Str
  | [] => none
  | '\'' :: '\'' :: s => (literalBody s).map ('\'' :: ·)
  | '\'' :: _ => some []
  | c :: s => (literalBody s).map (c :: ·)

def parseSqlStringLiteral (s : Str) : Option Str :=
  match trimStart s with
  | '\'' :: body => literalBody body
  | _ => none

/-- The text after the first `WHERE <column>`. -/
def afterWhereColumn (sql column : Str) : Option Str := do
  let upper := toAsciiUppercase sql
  let pattern := "WHERE ".toList ++ toAsciiUppercase column
  let wherePos ← find pattern upper
  some (sql.drop (wherePos + pattern.length))

/-- `WHERE <column> = 'literal'`. -/
def extractShardKeyLiteral (sql column : Str) : Option Str := do
  let rest ← afterWhereColumn sql column
  let afterCol ← skipColumnAndEq rest
  parseSqlStringLiteral afterCol

/-- `WHERE <column> = $N`, as a 0-based index. -/
def extractShardKeyParam (sql column : Str) : Option Nat := do
  let rest ← afterWhereColumn sql column
  let afterEq ← skipColumnAndEq rest
  match trimStart afterEq with
  | '$' :: digits =>
    match ← parseUsize (digits.takeWhile Char.isDigit) with
    | n + 1 => some n
    | 0 => none
  | _ => none

def classifyQuestdbPassthrough (sql shardKeyColumn : Str) : Except SqlRouteError RoutePlan :=
  match extractFromTable sql with
  | none => .error (.unsupported (questdbDialectPrefix ++
      " could not extract table from FROM clause".toList))
  | some table =>
    match extractShardKeyLiteral sql shardKeyColumn with
    | some literal => .ok (.singleShard table (some literal) none)
    | none =>
      match extractShardKeyParam sql shardKeyColumn with
      | some index => .ok (.singleShard table none (some index))
      | none => .error (.unsupported (questdbDialectPrefix ++
          " queries require a shard-key predicate (e.g. WHERE ".toList ++ shardKeyColumn ++
          " = 'X')".toList))

end QuestRouter.Routing
