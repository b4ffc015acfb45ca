import QuestRouter.Protocol.PgHandlers

/-!
# Extended-protocol sessions

A session is a sequence of Parse and Execute messages. One slot carries dialect text from a Parse to
whichever Execute comes next, so an Execute runs its own text exactly if the dialect text that waits
at that time is its own, or none waits and its statement is not dialect.
-/

namespace QuestRouter.Protocol
open Text Sql Routing Metadata QuestDbHandlers

/-- An Execute names the Parse of its statement by its number among those that stored one. -/
inductive Message where
  | parse (sql : Str)
  | execute (stmt : Nat) (seen : Observed) (params : ParamValues)

variable (h : QuestDbHandlers)

def step (session : Session) : Message → Session
  | .parse sql =>
    match h.parseSql session sql with
    | (.ok p, session) => { session with prepared := session.prepared ++ [p] }
    | (.error _, session) => session
  | .execute stmt seen params =>
    match session.prepared[stmt]? with
    | some ⟨_, some statement⟩ => (h.handleExtendedQuery seen session statement params).2
    | _ => session

def run (messages : List Message) : Session := messages.foldl (step h) {}

/-- The text given in the Parse of a statement. For text that is not dialect the hook has it as the
statement it was parsed into. -/
def ownText (p : Prepared) (statement : Statement) : Str :=
  if hasQuestdbExtension p.sql then p.sql else h.hook.router.parser.display statement

/-- The statement that an Execute hands to the hook, unless it is a write, which the hook refuses. -/
def Runs (session : Session) (stmt : Nat) (p : Prepared) (statement : Statement) : Prop :=
  session.prepared[stmt]? = some p ∧ p.statement = some statement ∧ isWriteStatement statement = false

/-- The text passes the check of its tables and is routed. -/
def Admitted (seen : Observed) (sql : Str) : Prop := h.hook.ensureDatafusionTables seen sql = none

instance (seen : Observed) (sql : Str) : Decidable (Admitted h seen sql) :=
  inferInstanceAs (Decidable (_ = none))

/-- Every Execute of the session routes the text of its own Parse. -/
def RunsOwnText (messages : List Message) : Prop :=
  ∀ before stmt seen params after, messages = before ++ .execute stmt seen params :: after →
    ∀ p statement, Runs (run h before) stmt p statement →
      Admitted h seen (h.routedText (run h before) statement) →
        h.routedText (run h before) statement = ownText h p statement

/-! ### The text that waits -/

def Takes (before : List Message) : Message → Prop
  | .parse _ => False
  | .execute stmt _ _ => ∃ p statement, Runs (run h before) stmt p statement

def IsDialectParse : Message → Prop
  | .parse sql => hasQuestdbExtension sql = true
  | .execute .. => False

/-- The text of the last dialect Parse, if no Execute has taken it. -/
def Waits (messages : List Message) (sql : Str) : Prop :=
  hasQuestdbExtension sql = true ∧ ∃ earlier later, messages = earlier ++ .parse sql :: later ∧
    ∀ between message rest, later = between ++ message :: rest →
      ¬ IsDialectParse message ∧ ¬ Takes h (earlier ++ .parse sql :: between) message

theorem run_concat (messages : List Message) (message : Message) :
    run h (messages ++ [message]) = step h (run h messages) message := by simp [run]

theorem waits_concat (messages : List Message) (message : Message) (sql : Str) :
    Waits h (messages ++ [message]) sql ↔
      (message = .parse sql ∧ hasQuestdbExtension sql = true) ∨
        (Waits h messages sql ∧ ¬ IsDialectParse message ∧ ¬ Takes h messages message) := by
  constructor
  · rintro ⟨dialect, earlier, later, split, quiet⟩
    rcases List.eq_nil_or_concat later with rfl | ⟨later, last, rfl⟩
    · obtain ⟨rfl, same⟩ := List.append_inj' split rfl
      exact .inl ⟨List.singleton_inj.mp same, dialect⟩
    · have split : messages ++ [message] = (earlier ++ .parse sql :: later) ++ [last] := by simpa using split
      obtain ⟨rfl, same⟩ := List.append_inj' split rfl
      obtain rfl := List.singleton_inj.mp same
      refine .inr ⟨⟨dialect, earlier, later, rfl, fun between m rest eq => ?_⟩, quiet later message [] (by simp)⟩
      exact quiet between m (rest ++ [message]) (by simp [eq])
  · rintro (⟨rfl, dialect⟩ | ⟨⟨dialect, earlier, later, rfl, quiet⟩, other, leaves⟩)
    · exact ⟨dialect, messages, [], rfl, fun between m rest eq => by simp at eq⟩
    · refine ⟨dialect, earlier, later ++ [message], by simp, fun between m rest eq => ?_⟩
      rcases List.eq_nil_or_concat rest with rfl | ⟨rest, last, rfl⟩
      · obtain ⟨rfl, same⟩ := List.append_inj' eq rfl
        obtain rfl := List.singleton_inj.mp same
        exact ⟨other, leaves⟩
      · have eq : later ++ [message] = (between ++ m :: rest) ++ [last] := by simpa using eq
        exact quiet between m rest (List.append_inj' eq rfl).1

/-! ### The slot holds the text that waits -/

theorem parseSql_slot (session : Session) (sql : Str) :
    (step h session (.parse sql)).dialectSql =
      if hasQuestdbExtension sql then some sql else session.dialectSql := by
  by_cases dialect : hasQuestdbExtension sql = true
  · simp only [step, parseSql, if_pos dialect]
    cases h.placeholderStatement <;> rfl
  · simp only [step, parseSql, if_neg dialect]
    cases h.inner sql <;> rfl

theorem takeDialectSql_slot (session : Session) : (takeDialectSql session).2.dialectSql = none := by
  unfold takeDialectSql
  cases slot : session.dialectSql with
  | none => exact slot
  | some sql => rfl

theorem execute_slot (messages : List Message) (stmt : Nat) (seen : Observed) (params : ParamValues) :
    (Takes h messages (.execute stmt seen params) →
      (run h (messages ++ [.execute stmt seen params])).dialectSql = none) ∧
    (¬ Takes h messages (.execute stmt seen params) →
      (run h (messages ++ [.execute stmt seen params])).dialectSql = (run h messages).dialectSql) := by
  rw [run_concat]
  constructor
  · rintro ⟨⟨sql, _⟩, statement, found, rfl, notWrite⟩
    simp only [step, found, handleExtendedQuery, notWrite, Bool.false_eq_true, if_false]
    exact takeDialectSql_slot _
  · intro leaves
    simp only [step]
    split
    · rename_i sql statement found
      have write : isWriteStatement statement = true := by
        by_contra notWrite
        exact leaves ⟨_, statement, found, rfl, by simpa using notWrite⟩
      simp [handleExtendedQuery, write]
    · rfl

theorem slot_eq_some_iff (messages : List Message) (sql : Str) :
    (run h messages).dialectSql = some sql ↔ Waits h messages sql := by
  induction messages using List.reverseRecOn with
  | nil => simp [run, Waits]
  | append_singleton messages message ih =>
    rw [waits_concat, ← ih]
    cases message with
    | parse text =>
      rw [run_concat, parseSql_slot]
      simp only [IsDialectParse, Takes, Message.parse.injEq]
      split
      · rename_i dialect
        simp only [Option.some.injEq, dialect, not_true, false_and, and_false, or_false]
        exact ⟨fun same => ⟨same, same ▸ dialect⟩, fun same => same.1⟩
      · rename_i plain
        simp only [plain, not_false_eq_true, and_true, iff_or_self, Bool.false_eq_true]
        rintro ⟨rfl, dialect⟩
        exact (plain dialect).elim
    | execute stmt seen params =>
      obtain ⟨takes, leaves⟩ := execute_slot h messages stmt seen params
      simp only [IsDialectParse, reduceCtorEq, false_and, false_or, not_false_eq_true, true_and]
      by_cases taken : Takes h messages (.execute stmt seen params)
      · simp [takes taken, taken]
      · simp [leaves taken, taken]

/-! ### Own text -/

/-- At every Execute that is not refused as a write, the waiting text is the statement's own; if none
waits, the statement is not dialect. A text that fails the check of its tables is not routed. -/
def ExecutesAligned (messages : List Message) : Prop :=
  ∀ before stmt seen params after, messages = before ++ .execute stmt seen params :: after →
    ∀ p statement, Runs (run h before) stmt p statement →
      (∀ sql, Waits h before sql → Admitted h seen sql → sql = ownText h p statement) ∧
      ((∀ sql, ¬ Waits h before sql) → Admitted h seen (h.hook.router.parser.display statement) →
        h.hook.router.parser.display statement = ownText h p statement)

theorem routedText_waits {messages : List Message} {sql : Str} (waits : Waits h messages sql)
    (statement : Statement) : h.routedText (run h messages) statement = sql := by
  have slot := (slot_eq_some_iff h messages sql).mpr waits
  simp [routedText, takeDialectSql, slot]

theorem routedText_display {messages : List Message} (none : ∀ sql, ¬ Waits h messages sql)
    (statement : Statement) :
    h.routedText (run h messages) statement = h.hook.router.parser.display statement := by
  have slot : (run h messages).dialectSql = .none := by
    rw [Option.eq_none_iff_forall_ne_some]
    exact fun sql same => none sql ((slot_eq_some_iff h messages sql).mp same)
  simp [routedText, takeDialectSql, slot]

/-- A session runs every statement's own text exactly if its Executes are aligned with its Parses. -/
theorem runsOwnText_iff (messages : List Message) : RunsOwnText h messages ↔ ExecutesAligned h messages := by
  refine forall_congr' fun before => forall_congr' fun stmt => forall_congr' fun seen =>
    forall_congr' fun params => forall_congr' fun after => forall_congr' fun split =>
    forall_congr' fun p => forall_congr' fun statement => forall_congr' fun runs => ?_
  by_cases waiting : ∃ sql, Waits h before sql
  · obtain ⟨sql, waits⟩ := waiting
    rw [routedText_waits h waits]
    refine ⟨fun own => ⟨fun other alsoWaits => ?_, fun none => (none sql waits).elim⟩, fun own => own.1 sql waits⟩
    have same : some sql = some other :=
      ((slot_eq_some_iff h before sql).mpr waits).symm.trans ((slot_eq_some_iff h before other).mpr alsoWaits)
    obtain rfl := Option.some.inj same
    exact own
  · have none : ∀ sql, ¬ Waits h before sql := fun sql waits => waiting ⟨sql, waits⟩
    rw [routedText_display h none]
    exact ⟨fun own => ⟨fun sql waits => (none sql waits).elim, fun _ => own⟩, fun own => own.2 none⟩

/-! Two dialect statements are parsed, then the first is executed. -/

def selectOne : Statement := .query { body := .select { projection := [], source := [], groupBy := .expressions [] } }

def parsesToOne : SqlParser := ⟨fun _ => .ok [selectOne], fun _ => "SELECT 1".toList⟩

def symbolHandlers : QuestDbHandlers where
  hook := ⟨⟨parsesToOne, "symbol".toList, false⟩, fun _ => .ok true⟩
  inner _ := .ok (some selectOne)

def sampleOf (symbol : String) : Str :=
  "SELECT ts FROM trades WHERE symbol = '".toList ++ symbol.toList ++ "' SAMPLE BY 1h".toList

def interleaved : List Message :=
  [.parse (sampleOf "A"), .parse (sampleOf "B"),
    .execute 0 ⟨tradesCluster, tradesCluster, tradesCluster⟩ (.list [])]

/-- The first statement runs the text of the second. -/
theorem interleaved_runs_other_text : ¬ RunsOwnText symbolHandlers interleaved := by
  intro own
  have routed := own [.parse (sampleOf "A"), .parse (sampleOf "B")] 0
    ⟨tradesCluster, tradesCluster, tradesCluster⟩ (.list []) [] rfl ⟨sampleOf "A", some selectOne⟩ selectOne
    ⟨rfl, rfl, rfl⟩ (by decide +kernel)
  exact absurd routed (by decide +kernel)

end QuestRouter.Protocol
