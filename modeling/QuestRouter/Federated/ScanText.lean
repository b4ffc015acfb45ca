import QuestRouter.Federated.Provider
import QuestRouter.Sql.Reading

/-!
# The text of a table scan

The names of the columns are quoted and their quotes doubled, so that whatever characters they have the text is
read as a `SELECT` of these columns.
-/

namespace QuestRouter.Federated
open Text Sql

/-! ### Quoted names -/

def quotedName (name : Str) : Str := '"' :: doubled '"' name ++ ['"']

theorem lex_quotedName_content (acc name s : Str) :
    lex (.quoted '"' acc) (doubled '"' name ++ s) = lex (.quoted '"' (acc ++ name)) s := by
  induction name generalizing acc with
  | nil => rw [doubled_nil, List.nil_append, List.append_nil]
  | cons c name ih =>
    have shift : acc ++ c :: name = (acc ++ [c]) ++ name := by simp
    rw [shift, ← ih]
    by_cases quote : c = '"'
    · subst quote
      have ends : step (.quoted '"' acc) '"' = ([], .quotedQuote '"' acc) := by simp [step]
      have goesOn : step (.quotedQuote '"' acc) '"' = ([], .quoted '"' (acc ++ ['"'])) := by simp [step]
      rw [doubled_quote, List.cons_append, List.cons_append, lex_quiet (by rw [ends]), ends, lex_quiet (by rw [goesOn]),
        goesOn]
    · have reads : step (.quoted '"' acc) c = ([], .quoted '"' (acc ++ [c])) := by simp [step, quote]
      rw [doubled_other quote, List.cons_append, lex_quiet (by rw [reads]), reads]

theorem lex_quotedName (name : Str) {s : Str} (stops : s.head? ≠ some '"') :
    lex .ground (quotedName name ++ s) = (lex .ground s).map (.quoted name :: ·) := by
  have opens : step .ground '"' = ([], .quoted '"' []) := by decide
  have closes : step (.quoted '"' name) '"' = ([], .quotedQuote '"' name) := by simp [step]
  have whole : quotedName name ++ s = '"' :: (doubled '"' name ++ '"' :: s) := by simp [quotedName]
  rw [whole, lex_quiet (by rw [opens]), opens, lex_quotedName_content, List.nil_append, lex_quiet (by rw [closes]),
    closes]
  apply lex_end rfl
  intro c head
  have other : c ≠ '"' := fun same => stops (same ▸ head)
  simp [step, other]

/-- The tokens of names with commas between them. -/
def nameTokens (names : List Str) : List Token := (names.map Token.quoted).intersperse (.symbol ',')

theorem lex_quotedNames (names : List Str) {s : Str} (stops : s.head? ≠ some '"') :
    lex .ground (", ".toList.intercalate (names.map quotedName) ++ s) = (lex .ground s).map (nameTokens names ++ ·) := by
  induction names with
  | nil => simp [nameTokens, List.intercalate]
  | cons name names ih =>
    cases names with
    | nil =>
      have only : ", ".toList.intercalate ([name].map quotedName) = quotedName name := by simp [List.intercalate]
      rw [only, lex_quotedName name stops]
      rfl
    | cons next names =>
      have split : ", ".toList.intercalate ((name :: next :: names).map quotedName) ++ s =
          quotedName name ++ (", ".toList ++ (", ".toList.intercalate ((next :: names).map quotedName) ++ s)) := by
        simp [List.intercalate]
      have separated : ∀ t, lex .ground (", ".toList ++ t) = (lex .ground t).map (.symbol ',' :: ·) := by
        intro t
        rw [lex_append]
        rfl
      have other : (", ".toList ++ (", ".toList.intercalate ((next :: names).map quotedName) ++ s)).head? ≠ some '"' := by
        simp
      rw [split, lex_quotedName name other, separated, ih, Option.map_map, Option.map_map]
      rfl

/-! ### The statement -/

/-- A name that stands in a text without quotes. -/
def IsWord (name : Str) : Prop :=
  ∃ c rest, name = c :: rest ∧ start c = ([], .word [c]) ∧ ∀ d ∈ rest, isIdentPart d = true

def limitTokens : Option Nat → List Token
  | none => []
  | some n => [.word "LIMIT".toList, .number (decimal n)]

/-- `SELECT` of these columns `FROM` a table, with a limit or not. -/
def selectTokens (columns : List Str) (table : Str) (limit : Option Nat) : List Token :=
  .word "SELECT".toList :: nameTokens columns ++ .word "FROM".toList :: .word table :: limitTokens limit

theorem lex_number (acc : Str) {digits : Str} (digit : ∀ c ∈ digits, c.isDigit = true) :
    lex (.number acc) digits = some [.number (acc ++ digits)] := by
  induction digits generalizing acc with
  | nil =>
    rw [List.append_nil]
    rfl
  | cons d digits ih =>
    obtain ⟨here, later⟩ := List.forall_mem_cons.mp digit
    have reads : step (.number acc) d = ([], .number (acc ++ [d])) := by simp [step, here]
    rw [lex_quiet (by rw [reads]), reads, ih (acc ++ [d]) later]
    simp

theorem start_digit {c : Char} (digit : c.isDigit = true) : start c = ([], .number [c]) := by
  have range : 48 ≤ c.toNat ∧ c.toNat ≤ 57 := by
    simp only [Char.isDigit, Bool.and_eq_true, decide_eq_true_eq] at digit
    exact digit
  have known : ∀ n, 48 ≤ n → n ≤ 57 → start (Char.ofNat n) = ([], .number [Char.ofNat n]) := by decide
  have same := known c.toNat range.1 range.2
  rwa [Char.ofNat_toNat] at same

theorem tokens_decimal (n : Nat) : tokens (decimal n) = some [.number (decimal n)] := by
  cases digits : decimal n with
  | nil => exact absurd digits Nat.toDigits_ne_nil
  | cons c rest =>
    have each : ∀ d ∈ c :: rest, d.isDigit = true := fun d member => isDigit_of_mem_decimal (digits ▸ member)
    obtain ⟨here, later⟩ := List.forall_mem_cons.mp each
    have reads : step .ground c = ([], .number [c]) := start_digit here
    rw [tokens, lex_quiet (by rw [reads]), reads, lex_number [c] later]
    rfl

theorem lex_tableName {table : Str} (word : IsWord table) {s : Str} (stops : s = [] ∨ s.head? = some ' ') :
    lex .ground (table ++ s) = (lex .ground s).map (.word table :: ·) := by
  obtain ⟨c, rest, rfl, starts, parts⟩ := word
  have reads : step .ground c = ([], .word [c]) := starts
  rw [List.cons_append, lex_quiet (by rw [reads]), reads]
  apply lex_word [c] parts
  intro d head
  rcases stops with rfl | first
  · cases head
  · obtain rfl : ' ' = d := Option.some.inj (first.symm.trans head)
    decide

/-- A text after which nothing is read on. -/
theorem lex_whole {text : Str} {ts : List Token} (ends : Mode.run .ground text = .ground)
    (read : emitted .ground text = ts) (s : Str) : lex .ground (text ++ s) = (lex .ground s).map (ts ++ ·) := by
  rw [lex_append, ends, read]

def limitText : Option Nat → Str
  | none => []
  | some n => " LIMIT ".toList ++ decimal n

theorem limitText_some (n : Nat) : limitText (some n) = " LIMIT ".toList ++ decimal n := rfl

theorem limitText_head : ∀ limit, limitText limit = [] ∨ (limitText limit).head? = some ' '
  | none => .inl rfl
  | some _ => .inr rfl

theorem quotedName_eq (name : Str) :
    "\"".toList ++ replace name "\"".toList "\"\"".toList ++ "\"".toList = quotedName name := by
  have one : "\"".toList = ['"'] := by decide
  have two : "\"\"".toList = ['"', '"'] := by decide
  rw [one, two, replace_doubled]
  rfl

theorem scanSql_text (table : QuestDbShardTableProvider) (limit : Option Nat) : table.scanSql limit =
    "SELECT ".toList ++ ", ".toList.intercalate (table.schema.map fun name =>
      "\"".toList ++ replace name "\"".toList "\"\"".toList ++ "\"".toList) ++ " FROM ".toList ++ table.tableName ++
        limitText limit :=
  match limit with
  | none => (List.append_nil _).symm
  | some _ => List.append_assoc _ _ _

theorem lex_limitText : ∀ limit, lex .ground (limitText limit) = some (limitTokens limit)
  | none => rfl
  | some n => by
    have number : lex .ground (decimal n) = some [.number (decimal n)] := tokens_decimal n
    have read : emitted .ground " LIMIT ".toList = [.word "LIMIT".toList] := by decide
    rw [limitText_some, lex_whole (by decide) read, number]
    rfl

/-- Whatever characters the columns have in their names, the text is read as a `SELECT` of these columns. -/
theorem tokens_scanSql {table : QuestDbShardTableProvider} (word : IsWord table.tableName) (limit : Option Nat) :
    tokens (table.scanSql limit) = some (selectTokens table.schema table.tableName limit) := by
  have select : emitted .ground "SELECT ".toList = [.word "SELECT".toList] := by decide
  have source : emitted .ground " FROM ".toList = [.word "FROM".toList] := by decide
  have columns := lex_quotedNames table.schema (s := " FROM ".toList ++ (table.tableName ++ limitText limit)) (by simp)
  rw [tokens, scanSql_text]
  simp only [quotedName_eq]
  simp only [List.append_assoc]
  rw [lex_whole (by decide) select, columns, lex_whole (by decide) source, lex_tableName word (limitText_head limit), lex_limitText]
  simp [selectTokens]

end QuestRouter.Federated
