import QuestRouter.Protocol.Inlining
import QuestRouter.Protocol.PgSession
import QuestRouter.Routing.SingleShard
import QuestRouter.Sql.Reading
import QuestRouter.Sql.Statements

/-!
# What reaches a shard

Text that is parsed reaches a shard only as one read or one session statement. Text with a QuestDB
extension is not parsed, and reaches the shard as it is. Inlining a parameter puts a literal where a
placeholder was, which does not change what a text is as long as the literal is a token of its own.
-/

namespace QuestRouter.Protocol
open Text Sql Routing Metadata

/-! ### Inlining keeps the kinds of the tokens -/

def kinds (m : Mode) (s : Str) : Option (List Kind) := (lex m s).map (List.map kind)

/-- Here a literal starts a token wherever a placeholder does. -/
def StartsLiteral (m : Mode) : Prop :=
  Sql.step m '\'' = ((Sql.step m '$').1, .string []) ∧ Sql.step m 'N' = ((Sql.step m '$').1, .word ['N'])

/-- The literal for a placeholder that starts here touches no literal before it, and nothing after it
that it would run on into. -/
def ApartAt (params : List Str) (m : Mode) (s : Str) : Prop :=
  ∀ k, (paramAt m s).filter (· ≤ params.length) = some k →
    StartsLiteral m ∧ ∀ c ∈ (s.drop (placeholder k).length).head?, c ≠ '\'' ∧ c ≠ '#' ∧ c ≠ '@'

def Apart (params : List Str) (m : Mode) (s : Str) : Prop :=
  ∀ before rest, s = before ++ rest → ApartAt params (m.run before) rest

theorem paramAt_other {m : Mode} {s : Str} (other : ∀ c ∈ s.head?, c ≠ '$') : paramAt m s = none := by
  unfold paramAt
  split
  · exact (other _ rfl rfl).elim
  · rfl

namespace RouterQueryHook
variable {hook : RouterQueryHook} {seen : Observed} {sql : Str} {params : Option (List Str)}

theorem handleRawSql_forwarded {text : Str} :
    (hook.handleRawSql seen sql params).forwarded = some text ↔
      hook.ensureDatafusionTables seen sql = none ∧
        (hook.router.resolveRoute seen.classified seen.routed sql params = .ok .passthrough ∧ sql = text ∨
          (∃ shard, hook.router.resolveRoute seen.classified seen.routed sql params = .ok (.single shard)) ∧
            backendSql sql params = text) := by
  unfold handleRawSql handleRoutedSql tryResolveHookRoute
  cases admitted : hook.ensureDatafusionTables seen sql with
  | some e => simp [HookResult.forwarded]
  | none =>
    cases hook.router.resolveRoute seen.classified seen.routed sql params with
    | ok route => cases route <;> simp [HookResult.forwarded]
    | error e =>
      cases e with
      | unsupported msg =>
        by_cases named : (contains msg onlyReadQueries || contains msg questdbDialectPrefix) = true
        · simp only [if_pos named]
          split <;> simp [HookResult.forwarded]
        · simp only [if_neg named]
          simp [HookResult.forwarded]
      | _ => simp [HookResult.forwarded]

end RouterQueryHook
open RouterQueryHook

/-! ### Read-only texts -/

inductive Request where
  | simple (query : Str) (statements : List Statement)
  | extended (session : Session) (statement : Statement) (params : ParamValues)

namespace QuestDbHandlers
variable (h : QuestDbHandlers)

def results (seen : Observed) : Request → List HookResult
  | .simple query statements => h.doQuery seen query statements
  | .extended session statement params => [(h.handleExtendedQuery seen session statement params).1]

def asked : Request → List (Str × Option (List Str))
  | .simple query statements =>
    if hasQuestdbExtension query then [(query, none)]
    else (statements.filter (!isWriteStatement ·)).map fun statement =>
      (h.hook.router.parser.display statement, none)
  | .extended session statement params =>
    if isWriteStatement statement then []
    else [(h.routedText session statement, some (paramsToStrings params))]

end QuestDbHandlers

def trades : Observed := ⟨tradesCluster, tradesCluster, tradesCluster⟩

end QuestRouter.Protocol
