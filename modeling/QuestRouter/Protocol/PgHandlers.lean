import QuestRouter.Protocol.PgHook

/-!
# PG handlers

QuestDB dialect text cannot be parsed. A simple query with such text goes to the hook as it is. In
the extended protocol the text waits in a slot of the session, from its Parse to the Execute that
takes it, and a placeholder statement is stored in its place.
-/

namespace QuestRouter.Protocol
open Text Sql Routing Metadata

/-- A scalar of DataFusion; those that are not text are rendered by it. -/
inductive ScalarValue where
  | utf8 (s : Str)
  | largeUtf8 (s : Str)
  | other (rendered : Str)
  deriving DecidableEq, Repr

inductive ParamValues where
  | list (values : List ScalarValue)
  | map (values : List (Str × ScalarValue))

def scalarToString : ScalarValue → Str
  | .utf8 s => s
  | .largeUtf8 s => s
  | .other rendered => rendered

def paramsToStrings : ParamValues → List Str
  | .list values => values.map scalarToString
  | .map values => (values.mergeSort fun a b => decide (a.1 ≤ b.1)).map fun entry => scalarToString entry.2

/-- The hook of a session and the parser it wraps, which yields the statement to store, if any. That parser is taken as
a function of the text alone: what it may remember from other texts is not modelled. -/
structure QuestDbHandlers where
  hook : RouterQueryHook
  inner : Str → Except PgWireError (Option Statement)

/-- A statement stored by a Parse, with the text of that Parse. -/
structure Prepared where
  sql : Str
  statement : Option Statement

/-- What a session keeps: `DialectSqlStore` and the statements stored, in the order of their Parse. -/
structure Session where
  dialectSql : Option Str := none
  prepared : List Prepared := []

namespace QuestDbHandlers

/-- `DialectSimpleHandler::do_query`. Other text, and text the hook leaves, is parsed into statements,
for each of which the hook is asked. -/
def doQuery (h : QuestDbHandlers) (seen : Observed) (query : Str) (statements : List Statement) :
    List HookResult :=
  let rest := statements.map (h.hook.handleSimpleQuery seen)
  if hasQuestdbExtension query then
    match h.hook.handleRawSql seen query none with
    | .delegated => rest
    | result => [result]
  else rest

def placeholderStatement (h : QuestDbHandlers) : Except PgWireError Statement :=
  match h.hook.router.parser.parseSql "SELECT 1".toList with
  | .error e => .error (.api e)
  | .ok [] => .error (.api "empty dialect placeholder".toList)
  | .ok (statement :: _) => .ok statement

/-- `DialectAwareParser::parse_sql`. -/
def parseSql (h : QuestDbHandlers) (session : Session) (sql : Str) : Except PgWireError Prepared × Session :=
  if hasQuestdbExtension sql then
    let session := { session with dialectSql := some sql }
    match h.placeholderStatement with
    | .error e => (.error e, session)
    | .ok dummy => (.ok ⟨sql, some dummy⟩, session)
  else
    match h.inner sql with
    | .error e => (.error e, session)
    | .ok statement => (.ok ⟨sql, statement⟩, session)

def takeDialectSql (session : Session) : Option Str × Session :=
  match session.dialectSql with
  | some sql => (some sql, { session with dialectSql := none })
  | none => (none, session)

/-- The text that `handleExtendedQuery` checks and routes for a statement that is not a write. -/
def routedText (h : QuestDbHandlers) (session : Session) (statement : Statement) : Str :=
  (takeDialectSql session).1.getD (h.hook.router.parser.display statement)

def handleExtendedQuery (h : QuestDbHandlers) (seen : Observed) (session : Session) (statement : Statement)
    (params : ParamValues) : HookResult × Session :=
  if isWriteStatement statement then (.error .readOnly, session)
  else
    let sql := h.routedText session statement
    (h.hook.handleRawSql seen sql (some (paramsToStrings params)), (takeDialectSql session).2)

end QuestDbHandlers
end QuestRouter.Protocol
