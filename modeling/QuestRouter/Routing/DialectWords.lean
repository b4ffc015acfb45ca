import QuestRouter.Routing.DialectSearch
import QuestRouter.Sql.Words

/-!
# The words of the dialect

`SAMPLE BY` and `LATEST ON` are clauses by their tokens: two words, in any letter case, with blanks and comments
between them. The search for them is for a text with one blank, wherever that is.
-/

namespace QuestRouter.Routing
open Text Sql

def isExtension (first second : Token) : Bool :=
  (isWord "SAMPLE" first && isWord "BY" second) || (isWord "LATEST" first && isWord "ON" second)

def extensionTokens : List Token → Bool
  | first :: second :: ts => isExtension first second || extensionTokens (second :: ts)
  | _ => false

/-- The path of a text without an extension. -/
def classifyParsed (parser : SqlParser) (sql shardKeyColumn : Str) (registry : TableRegistry)
    (scanAllowOrderBy : Bool) : Except SqlRouteError SqlClassify := do
  let statement ← parseOneStatement parser sql
  if isPassthroughStatement statement then return .passthrough
  match statement with
  | .query query => (planQuery query sql shardKeyColumn registry scanAllowOrderBy).map .routable
  | _ => throw (.unsupported "only read queries (SELECT) are routed via SQL parser".toList)

/-- An extension is detected by the tokens of the text, and they decide how it is classified. -/
structure FollowsTokens (sql : Str) : Prop where
  detected : hasQuestdbExtension sql = extensionTokens (readTokens sql)
  classified : ∀ parser column registry allow, classifySql parser sql column registry allow =
    if extensionTokens (readTokens sql) then (classifyQuestdbPassthrough sql column).map .routable
    else classifyParsed parser sql column registry allow

/-- The keywords of an extension are in the text, with `gap` between them. -/
structure Keywords (sql before first gap second rest : Str) : Prop where
  split : sql = before ++ (first ++ (gap ++ (second ++ rest)))
  extension : isExtension (.word first) (.word second) = true

/-- The keywords are words of the statement: they begin outside literals, quoted names, comments and other words,
and the second is no part of a longer word. -/
def Stands (before first second rest : Str) : Prop := Begins (Mode.ground.run before) first ∧ Ends second rest

/-- Two keywords of the statement with one blank between them. -/
def Plainly (sql : Str) : Prop :=
  ∃ before first second rest, Keywords sql before first [' '] second rest ∧ Stands before first second rest

/-- The text of an extension that is no extension of the statement. -/
def Mentioned (sql : Str) : Prop :=
  ∃ before first second rest, Keywords sql before first [' '] second rest ∧ ¬ Stands before first second rest

/-- Two keywords of the statement with anything but one blank between them. -/
def Spread (sql : Str) : Prop :=
  ∃ before first gap second rest, gap ≠ [' '] ∧ Keywords sql before first gap second rest ∧
    Adjacent before first gap second rest

/-! ### By the tokens -/

theorem word_of_isWord {word : String} {t : Token} (isOne : isWord word t = true) : ∃ w, t = .word w := by
  cases t with
  | word w => exact ⟨w, rfl⟩
  | _ => cases isOne

theorem words_of_isExtension {t u : Token} (pair : isExtension t u = true) :
    ∃ first second, t = .word first ∧ u = .word second := by
  rw [isExtension, Bool.or_eq_true, Bool.and_eq_true, Bool.and_eq_true] at pair
  rcases pair with ⟨left, right⟩ | ⟨left, right⟩
  all_goals
    obtain ⟨first, rfl⟩ := word_of_isWord left
    obtain ⟨second, rfl⟩ := word_of_isWord right
    exact ⟨first, second, rfl, rfl⟩

theorem extensionTokens_iff {ts : List Token} : extensionTokens ts = true ↔
    ∃ first second, isExtension (.word first) (.word second) = true ∧ [.word first, .word second] <:+: ts := by
  fun_induction extensionTokens ts with
  | case1 t u ts ih =>
    rw [Bool.or_eq_true, ih]
    constructor
    · intro found
      rcases found with here | ⟨first, second, pair, later⟩
      · obtain ⟨first, second, rfl, rfl⟩ := words_of_isExtension here
        exact ⟨first, second, here, List.infix_cons_iff.mpr (.inl ⟨ts, rfl⟩)⟩
      · exact ⟨first, second, pair, List.infix_cons_iff.mpr (.inr later)⟩
    · intro ⟨first, second, pair, inside⟩
      rcases List.infix_cons_iff.mp inside with ⟨rest, here⟩ | later
      · obtain ⟨rfl, next⟩ := List.cons.inj here
        obtain ⟨rfl, _⟩ := List.cons.inj next
        exact .inl pair
      · exact .inr ⟨first, second, pair, later⟩
  | case2 ts short =>
    refine iff_of_false Bool.false_ne_true ?_
    intro ⟨first, second, _, inside⟩
    have long := inside.length_le
    match ts, short with
    | [], _ | [_], _ => simp at long
    | t :: u :: ts, short => exact short t u ts rfl

theorem isExtension_iff {first second : Str} : isExtension (.word first) (.word second) = true ↔
    (eqIgnoreAsciiCase first "SAMPLE".toList = true ∧ eqIgnoreAsciiCase second "BY".toList = true) ∨
      (eqIgnoreAsciiCase first "LATEST".toList = true ∧ eqIgnoreAsciiCase second "ON".toList = true) := by
  rw [isExtension, Bool.or_eq_true, Bool.and_eq_true, Bool.and_eq_true]
  rfl

theorem begins_of_keyword {w keyword : Str} {c : Char} (starts : keyword.head? = some c) (begins : isIdentStart c = true)
    (parts : ∀ d ∈ keyword, isIdentPart d = true) (same : eqIgnoreAsciiCase w keyword = true) : Begins .ground w := by
  have upper := eqIgnoreAsciiCase_iff_upper.mp same
  have allParts := identPart_of_upper upper parts
  obtain ⟨keyword, rfl⟩ := List.head?_eq_some_iff.mp starts
  obtain ⟨d, part, rfl, upperD, _⟩ := List.map_eq_cons_iff.mp upper
  have begins : isIdentStart d = true := by rw [← isIdentStart_toUpper, upperD, isIdentStart_toUpper, begins]
  rw [List.forall_mem_cons] at allParts
  refine ⟨d, part, rfl, ?_, allParts.2⟩
  rw [step, start, not_blank_of_identPart allParts.1, begins]
  rfl

/-- One blank between keywords is as good as any. -/
theorem adjacent_blank_iff {before first second rest : Str} (extension : isExtension (.word first) (.word second) = true) :
    Adjacent before first [' '] second rest ↔ Stands before first second rest := by
  have next : Begins (Mode.ground.run [' ']) second := by
    rcases isExtension_iff.mp extension with ⟨_, isBy⟩ | ⟨_, isOn⟩
    · exact begins_of_keyword (c := 'B') rfl (by decide) (List.all_eq_true.mp (by decide)) isBy
    · exact begins_of_keyword (c := 'O') rfl (by decide) (List.all_eq_true.mp (by decide)) isOn
  constructor
  · exact fun adjacent => ⟨adjacent.begins, adjacent.last⟩
  · intro stands
    refine ⟨stands.1, ?_, rfl, next, stands.2⟩
    intro c head
    cases head
    exact ⟨by decide, fun quote => absurd quote.1 (by decide)⟩

theorem extensionTokens_readTokens {sql : Str} : extensionTokens (readTokens sql) = true ↔ Plainly sql ∨ Spread sql := by
  rw [extensionTokens_iff]
  constructor
  · intro ⟨first, second, extension, inside⟩
    obtain ⟨before, gap, rest, split, adjacent⟩ := readTokens_pair_iff.mp inside
    by_cases blank : gap = [' ']
    · subst blank
      exact .inl ⟨before, first, second, rest, ⟨split, extension⟩, (adjacent_blank_iff extension).mp adjacent⟩
    · exact .inr ⟨before, first, gap, second, rest, blank, ⟨split, extension⟩, adjacent⟩
  · intro found
    rcases found with ⟨before, first, second, rest, ⟨split, extension⟩, stands⟩ |
      ⟨before, first, gap, second, rest, _, ⟨split, extension⟩, adjacent⟩
    · have adjacent := (adjacent_blank_iff extension).mpr stands
      exact ⟨first, second, extension, readTokens_pair_iff.mpr ⟨before, [' '], rest, split, adjacent⟩⟩
    · exact ⟨first, second, extension, readTokens_pair_iff.mpr ⟨before, gap, rest, split, adjacent⟩⟩

/-! ### By the text -/

theorem contains_upper_iff {sql a b : Str} (upperA : toAsciiUppercase a = a) (upperB : toAsciiUppercase b = b) :
    contains (toAsciiUppercase sql) (a ++ ' ' :: b) = true ↔
      ∃ before first second rest, sql = before ++ (first ++ ([' '] ++ (second ++ rest))) ∧
        eqIgnoreAsciiCase first a = true ∧ eqIgnoreAsciiCase second b = true := by
  simp only [contains_iff, eqIgnoreAsciiCase_iff_upper, upperA, upperB]
  constructor
  · intro ⟨xs, ys, split⟩
    obtain ⟨before, text, rfl, _, upperText⟩ := List.map_eq_append_iff.mp (split.symm.trans (List.append_assoc xs _ ys))
    obtain ⟨first, second, rest, rfl, upperFirst, upperSecond⟩ := upper_apart upperText
    exact ⟨before, first, second, rest, rfl, upperFirst, upperSecond⟩
  · intro ⟨before, first, second, rest, split, upperFirst, upperSecond⟩
    refine ⟨toAsciiUppercase before, toAsciiUppercase rest, ?_⟩
    rw [← upperFirst, ← upperSecond, split]
    simp [toAsciiUppercase]

theorem hasQuestdbExtension_iff {sql : Str} : hasQuestdbExtension sql = true ↔
    ∃ before first second rest, Keywords sql before first [' '] second rest := by
  have sampleBy := @contains_upper_iff sql "SAMPLE".toList "BY".toList (by decide) (by decide)
  have latestOn := @contains_upper_iff sql "LATEST".toList "ON".toList (by decide) (by decide)
  have detected : hasQuestdbExtension sql = true ↔
      contains (toAsciiUppercase sql) ("SAMPLE".toList ++ ' ' :: "BY".toList) = true ∨
        contains (toAsciiUppercase sql) ("LATEST".toList ++ ' ' :: "ON".toList) = true := by
    rw [hasQuestdbExtension, Bool.or_eq_true]
    rfl
  rw [detected]
  constructor
  · intro found
    rcases found with found | found
    · obtain ⟨before, first, second, rest, split, isSample, isBy⟩ := sampleBy.mp found
      exact ⟨before, first, second, rest, split, isExtension_iff.mpr (.inl ⟨isSample, isBy⟩)⟩
    · obtain ⟨before, first, second, rest, split, isLatest, isOn⟩ := latestOn.mp found
      exact ⟨before, first, second, rest, split, isExtension_iff.mpr (.inr ⟨isLatest, isOn⟩)⟩
  · intro ⟨before, first, second, rest, split, extension⟩
    rcases isExtension_iff.mp extension with ⟨isSample, isBy⟩ | ⟨isLatest, isOn⟩
    · exact .inl (sampleBy.mpr ⟨before, first, second, rest, split, isSample, isBy⟩)
    · exact .inr (latestOn.mpr ⟨before, first, second, rest, split, isLatest, isOn⟩)

theorem hasQuestdbExtension_words {sql : Str} : hasQuestdbExtension sql = true ↔ Plainly sql ∨ Mentioned sql := by
  rw [hasQuestdbExtension_iff]
  constructor
  · intro ⟨before, first, second, rest, keywords⟩
    by_cases stands : Stands before first second rest
    · exact .inl ⟨before, first, second, rest, keywords, stands⟩
    · exact .inr ⟨before, first, second, rest, keywords, stands⟩
  · intro found
    rcases found with ⟨before, first, second, rest, keywords, _⟩ | ⟨before, first, second, rest, keywords, _⟩
    all_goals exact ⟨before, first, second, rest, keywords⟩

theorem followsTokens_of_detected {sql : Str} (detected : hasQuestdbExtension sql = extensionTokens (readTokens sql)) :
    FollowsTokens sql := by
  refine ⟨detected, fun parser column registry allow => ?_⟩
  rw [← detected]
  rfl

/-- Detection follows the tokens where keywords of the statement are one blank apart, or where there is the text of
an extension elsewhere just when there are keywords of the statement apart in another way. -/
theorem detection_follows_tokens_iff (sql : Str) :
    FollowsTokens sql ↔ Plainly sql ∨ (Mentioned sql ↔ Spread sql) := by
  have same : FollowsTokens sql ↔ (Plainly sql ∨ Mentioned sql ↔ Plainly sql ∨ Spread sql) := by
    rw [← hasQuestdbExtension_words, ← extensionTokens_readTokens, ← Bool.eq_iff_iff]
    exact ⟨FollowsTokens.detected, followsTokens_of_detected⟩
  rw [same]
  by_cases plainly : Plainly sql
  · exact iff_of_true (iff_of_true (.inl plainly) (.inl plainly)) (.inl plainly)
  · rw [or_iff_right plainly, or_iff_right plainly, or_iff_right plainly]

/-- A literal that mentions an extension. -/
def mentionText : Str := "SELECT ts FROM trades WHERE note = 'sample by'".toList

def mentionTokens : List Token :=
  [.word "SELECT".toList, .word "ts".toList, .word "FROM".toList, .word "trades".toList, .word "WHERE".toList,
    .word "note".toList, .symbol '=', .string "sample by".toList]

/-- An extension on two lines. -/
def spreadText : Str := "SELECT ts FROM trades SAMPLE\n  BY 1h".toList

def spreadTokens : List Token :=
  [.word "SELECT".toList, .word "ts".toList, .word "FROM".toList, .word "trades".toList, .word "SAMPLE".toList,
    .word "BY".toList, .number "1".toList, .word "h".toList]

theorem detection_misses_tokens :
    hasQuestdbExtension mentionText = true ∧ ¬ FollowsTokens mentionText ∧
      hasQuestdbExtension spreadText = false ∧ ¬ FollowsTokens spreadText := by
  have mentioned : readTokens mentionText = mentionTokens := readTokens_of_tokens (by decide +kernel)
  have spread : readTokens spreadText = spreadTokens := readTokens_of_tokens (by decide +kernel)
  refine ⟨by decide +kernel, fun follows => ?_, by decide +kernel, fun follows => ?_⟩
  · have detected := follows.detected
    rw [mentioned] at detected
    exact absurd detected (by decide +kernel)
  · have detected := follows.detected
    rw [spread] at detected
    exact absurd detected (by decide +kernel)

end QuestRouter.Routing
