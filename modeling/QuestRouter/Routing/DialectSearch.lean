import Mathlib
import QuestRouter.Routing.Sql
import QuestRouter.Sql.Clauses

/-!
# The text search for a key

A text with a QuestDB extension is not parsed. Its key is what follows the first `WHERE <column> =` of the
text, wherever that is. Where it is the text's own `WHERE`, and what follows the literal is `AND` or
the end of the condition, with no `OR` outside parentheses, the literal is the row's key.
-/

namespace QuestRouter.Routing
open Text Sql

/-! ### Letter case

The lemmas on the case of a character come with Mathlib only as a whole. -/

theorem isIdentPart_toUpper (c : Char) : isIdentPart c.toUpper = isIdentPart c := by
  by_cases lower : c.isLower = true
  · have letter : c.isAlpha = true := by simp [Char.isAlpha, lower]
    have upper : c.toUpper.isAlpha = true := by rwa [Char.isAlpha_toUpper_eq_isAlpha]
    simp [isIdentPart, isIdentStart, isLetter, letter, upper]
  · rw [Char.toUpper_eq_of_not_isLower lower]

theorem isIdentStart_toUpper (c : Char) : isIdentStart c.toUpper = isIdentStart c := by
  by_cases lower : c.isLower = true
  · have letter : c.isAlpha = true := by simp [Char.isAlpha, lower]
    have upper : c.toUpper.isAlpha = true := by rwa [Char.isAlpha_toUpper_eq_isAlpha]
    simp [isIdentStart, isLetter, letter, upper]
  · rw [Char.toUpper_eq_of_not_isLower lower]

theorem identPart_of_upper {s t : Str} (same : toAsciiUppercase s = toAsciiUppercase t)
    (parts : ∀ c ∈ t, isIdentPart c = true) : ∀ c ∈ s, isIdentPart c = true := by
  intro c member
  have upper : c.toUpper ∈ toAsciiUppercase t := by
    rw [← same]
    exact List.mem_map_of_mem member
  obtain ⟨d, inside, equal⟩ := List.mem_map.mp upper
  rw [← isIdentPart_toUpper, ← equal, isIdentPart_toUpper]
  exact parts d inside

theorem eqIgnoreAsciiCase_iff_upper {s t : Str} :
    eqIgnoreAsciiCase s t = true ↔ toAsciiUppercase s = toAsciiUppercase t := by
  have lower : ∀ u : Str, toAsciiLowercase (toAsciiUppercase u) = toAsciiLowercase u := by
    simp [toAsciiLowercase, toAsciiUppercase]
  have upper : ∀ u : Str, toAsciiUppercase (toAsciiLowercase u) = toAsciiUppercase u := by
    simp [toAsciiLowercase, toAsciiUppercase]
  rw [eqIgnoreAsciiCase_iff]
  constructor
  · intro same
    rw [← upper s, ← upper t, same]
  · intro same
    rw [← lower s, ← lower t, same]

theorem upper_blank {c : Char} (upper : c.toUpper = ' ') : c = ' ' := by
  by_cases lower : c.isLower = true
  · have letter := Char.isUpper_toUpper_eq_isAlpha c
    rw [upper, Char.isAlpha, lower, Bool.or_true] at letter
    cases letter
  · rwa [Char.toUpper_eq_of_not_isLower lower] at upper

theorem not_blank_of_identPart {c : Char} (part : isIdentPart c = true) : isWhitespace c = false := by
  have ranges : (128 ≤ c.toNat ∧ isWhitespace c = false) ∨ (35 ≤ c.toNat ∧ c.toNat ≤ 122) := by
    simp only [isIdentPart, isIdentStart, isLetter, Char.isAlpha, Char.isUpper, Char.isLower, Char.isDigit, Bool.or_eq_true,
      Bool.and_eq_true, decide_eq_true_eq, UInt32.le_iff_toNat_le, ge_iff_le, beq_iff_eq, Bool.not_eq_true',
      Char.toNat_val] at part
    rcases part with ((((((⟨low, high⟩ | ⟨low, high⟩) | rfl) | ⟨high, notBlank⟩) | rfl) | rfl) | ⟨low, high⟩) | rfl
    · simp at low high; omega
    · simp at low high; omega
    · decide
    · exact .inl ⟨high, notBlank⟩
    · decide
    · decide
    · simp at low high; omega
    · decide
  rcases ranges with ⟨_, notBlank⟩ | ⟨low, high⟩
  · exact notBlank
  · simp only [isWhitespace, Bool.or_eq_false_iff, Bool.and_eq_false_iff, decide_eq_false_iff_not, beq_eq_false_iff_ne]
    omega

/-! ### What the search finds -/

/-- Two texts with a blank between them, found in the upper-cased copy, are there in the text itself. -/
theorem upper_apart {s a b tail : Str} (upper : toAsciiUppercase s = a ++ ' ' :: b ++ tail) :
    ∃ first second rest, s = first ++ ' ' :: (second ++ rest) ∧ toAsciiUppercase first = a ∧
      toAsciiUppercase second = b := by
  obtain ⟨matched, rest, rfl, upperMatched, _⟩ := List.map_eq_append_iff.mp upper
  obtain ⟨first, behind, rfl, upperFirst, upperBehind⟩ := List.map_eq_append_iff.mp upperMatched
  obtain ⟨c, second, rfl, isBlank, upperSecond⟩ := List.map_eq_cons_iff.mp upperBehind
  obtain rfl := upper_blank isBlank
  exact ⟨first, second, rest, by rw [List.append_assoc, List.cons_append], upperFirst, upperSecond⟩

theorem afterWhereColumn_split {sql column rest : Str} (h : afterWhereColumn sql column = some rest) :
    ∃ pos keyword name,
      find ("WHERE ".toList ++ toAsciiUppercase column) (toAsciiUppercase sql) = some pos ∧
      sql = sql.take pos ++ (keyword ++ ' ' :: (name ++ rest)) ∧
      toAsciiUppercase keyword = "WHERE".toList ∧ toAsciiUppercase name = toAsciiUppercase column := by
  obtain ⟨pos, found, same⟩ := Option.bind_eq_some_iff.mp h
  obtain ⟨tail, upper⟩ := find_at found
  have pattern : "WHERE ".toList ++ toAsciiUppercase column = "WHERE".toList ++ ' ' :: toAsciiUppercase column := rfl
  have split : toAsciiUppercase (sql.drop pos) = "WHERE".toList ++ ' ' :: toAsciiUppercase column ++ tail := by
    rw [← pattern, ← upper, toAsciiUppercase, toAsciiUppercase, List.map_drop]
  obtain ⟨keyword, name, after, text, upperKeyword, upperName⟩ := upper_apart split
  have length : ("WHERE ".toList ++ toAsciiUppercase column).length = (keyword ++ ' ' :: name).length := by
    rw [pattern, ← upperKeyword, ← upperName]
    simp [toAsciiUppercase]
  have rest_eq : rest = after := by
    have text : sql.drop pos = (keyword ++ ' ' :: name) ++ after := by rw [text, List.append_assoc, List.cons_append]
    rw [← Option.some.inj same, ← List.drop_drop, length, text, List.drop_left]
  refine ⟨pos, keyword, name, found, ?_, upperKeyword, upperName⟩
  rw [rest_eq, ← text, List.take_append_drop]

def startsWord (m : Mode) : Bool := ['w', 'W'].all fun c => step m c == ((finish m).getD [], .word [c])

theorem upper_w {c : Char} (upper : c.toUpper = 'W') : c = 'w' ∨ c = 'W' := by
  by_cases lower : c.isLower = true
  · left
    have back := Char.toLower_toUpper_eq_toLower c
    rw [upper, Char.toLower_eq_of_not_isUpper (Char.not_isUpper_of_isLower lower)] at back
    exact back.symm
  · right
    rwa [Char.toUpper_eq_of_not_isLower lower] at upper

/-- A column name that SQL reads as one word, which is not a reserved one. -/
structure ColumnName (column : Str) : Prop where
  start : ∃ c ∈ column.head?, isIdentStart c = true
  parts : ∀ c ∈ column, isIdentPart c = true
  neutral : Neutral (.word column)

theorem lex_name {name column : Str} (isName : ColumnName column)
    (upper : toAsciiUppercase name = toAsciiUppercase column) {c : Char} (stops : isIdentPart c = false)
    (noQuote : c ≠ '\'') (s : Str) :
    lex .ground (name ++ c :: s) = (lex .ground (c :: s)).map (.word name :: ·) := by
  have parts := identPart_of_upper upper isName.parts
  obtain ⟨d, head, start⟩ := isName.start
  obtain ⟨rest, rfl⟩ : ∃ rest, column = d :: rest := by
    cases column with
    | nil => cases head
    | cons e rest => exact ⟨rest, by rw [Option.some.inj head]⟩
  cases name with
  | nil => cases upper
  | cons e name =>
    have first : e.toUpper = d.toUpper := (List.cons.inj upper).1
    have begins : isIdentStart e = true := by rw [← isIdentStart_toUpper, first, isIdentStart_toUpper, start]
    have notBlank := not_blank_of_identPart (parts e List.mem_cons_self)
    have reads : step .ground e = ([], .word [e]) := by simp [step, Sql.start, notBlank, begins]
    rw [List.cons_append, lex_cons, reads,
      lex_word [e] (fun f member => parts f (List.mem_cons_of_mem _ member)) (by simp [stops, noQuote]),
      Option.map_map]
    rfl

theorem skipColumnAndEq_split {rest operand : Str} (h : skipColumnAndEq rest = some operand) :
    ∃ c s, rest = c :: s ∧ isIdentPart c = false ∧ c ≠ '\'' ∧
      lex .ground rest = (lex .ground operand).map (.symbol '=' :: ·) := by
  have tokens : lex .ground rest = (lex .ground operand).map (.symbol '=' :: ·) := by
    rw [lex_trimStart]
    unfold skipColumnAndEq at h
    split at h
    · rename_i after equals
      obtain rfl := Option.some.inj h
      rw [equals, lex_cons, ← lex_trimStart after]
      rfl
    · cases h
  unfold skipColumnAndEq at h
  split at h
  · rename_i after equals
    cases rest with
    | nil => cases equals
    | cons c s =>
      refine ⟨c, s, rfl, ?_, ?_, tokens⟩
      · by_cases blank : isWhitespace c = true
        · by_contra part
          rw [not_blank_of_identPart (by simpa using part)] at blank
          cases blank
        · rw [trimStart, List.dropWhile_cons_of_neg blank] at equals
          rw [(List.cons.inj equals).1]
          rfl
      · rintro rfl
        cases equals
  · cases h

theorem tokens_at_match {sql column rest operand : Str} (isName : ColumnName column)
    (h : afterWhereColumn sql column = some rest) (compared : skipColumnAndEq rest = some operand) :
    ∃ pos keyword name,
      find ("WHERE ".toList ++ toAsciiUppercase column) (toAsciiUppercase sql) = some pos ∧
      isWord "WHERE" (.word keyword) = true ∧ eqIgnoreAsciiCase name column = true ∧
      ∀ before, startsWord (Mode.ground.run (sql.take pos)) = true → tokens (sql.take pos) = some before →
        tokens sql =
          (lex .ground operand).map (before ++ .word keyword :: .word name :: .symbol '=' :: ·) := by
  obtain ⟨pos, keyword, name, found, text, upperKeyword, upperName⟩ := afterWhereColumn_split h
  refine ⟨pos, keyword, name, found, eqIgnoreAsciiCase_iff_upper.mpr upperKeyword, eqIgnoreAsciiCase_iff_upper.mpr upperName, ?_⟩
  intro before starts head
  obtain ⟨c, s, rfl, stops, noQuote, equals⟩ := skipColumnAndEq_split compared
  obtain ⟨flush, finished, rfl⟩ := Option.map_eq_some_iff.mp head
  cases keyword with
  | nil => cases upperKeyword
  | cons w keyword =>
    have word : ∀ d ∈ w :: keyword, isIdentPart d = true := identPart_of_upper (t := "WHERE".toList) upperKeyword (List.all_eq_true.mp (by decide))
    have first : step (Mode.ground.run (sql.take pos)) w = (flush, .word [w]) := by
      simp only [startsWord, List.all_cons, List.all_nil, Bool.and_true, Bool.and_eq_true, beq_iff_eq, finished,
        Option.getD_some] at starts
      rcases upper_w (List.cons.inj upperKeyword).1 with rfl | rfl
      · exact starts.1
      · exact starts.2
    have blankStops : isIdentPart ' ' = false := by decide
    have read : lex (Mode.ground.run (sql.take pos)) (w :: keyword ++ ' ' :: (name ++ c :: s)) =
        (lex .ground operand).map (flush ++ .word (w :: keyword) :: .word name :: .symbol '=' :: ·) := by
      rw [List.cons_append, lex_cons, first,
        lex_word [w] (fun d member => word d (List.mem_cons_of_mem _ member)) (by simp [blankStops]),
        lex_blank (by decide), lex_name isName upperName stops noQuote, equals]
      simp [Option.map_map, Function.comp_def]
    rw [tokens]
    conv_lhs => rw [text]
    rw [lex_append, read, Option.map_map]
    simp [Function.comp_def]

/-! ### The operand -/

theorem lex_literalBody {body k : Str} (h : literalBody body = some k) (acc : Str) :
    ∃ rest, lex (.string acc) body = (lex .ground rest).map (.string (acc ++ k) :: ·) := by
  fun_induction literalBody body generalizing k acc with
  | case1 => cases h
  | case2 s ih =>
    obtain ⟨k', inside, rfl⟩ := Option.map_eq_some_iff.mp h
    obtain ⟨rest, read⟩ := ih inside (acc ++ ['\''])
    refine ⟨rest, ?_⟩
    rw [lex_cons, lex_cons]
    simpa [step] using read
  | case3 s single =>
    obtain rfl := Option.some.inj h
    refine ⟨s, ?_⟩
    have reads : step (.string acc) '\'' = ([], .stringQuote acc) := by simp [step]
    have other : ∀ c ∈ s.head?, c ≠ '\'' := by
      rintro c head rfl
      cases s with
      | nil => cases head
      | cons d s =>
        obtain rfl := Option.some.inj head
        exact single s rfl
    rw [lex_cons, reads, List.append_nil, lex_stringQuote acc other]
    simp [Option.map_map, Function.comp_def]
  | case4 c s _ other ih =>
    obtain ⟨k', inside, rfl⟩ := Option.map_eq_some_iff.mp h
    obtain ⟨rest, read⟩ := ih inside (acc ++ [c])
    refine ⟨rest, ?_⟩
    have reads : step (.string acc) c = ([], .string (acc ++ [c])) := by
      have noQuote : c ≠ '\'' := by
        rintro rfl
        exact other rfl
      simp [step, noQuote]
    rw [lex_cons, reads, read]
    simp [Option.map_map, Function.comp_def]

theorem extractShardKeyLiteral_split {sql column k : Str} (h : extractShardKeyLiteral sql column = some k) :
    ∃ rest operand more, afterWhereColumn sql column = some rest ∧ skipColumnAndEq rest = some operand ∧
      lex .ground operand = (lex .ground more).map (.string k :: ·) := by
  obtain ⟨rest, matched, h⟩ := Option.bind_eq_some_iff.mp h
  obtain ⟨operand, compared, h⟩ := Option.bind_eq_some_iff.mp h
  unfold parseSqlStringLiteral at h
  split at h
  · rename_i body starts
    obtain ⟨more, read⟩ := lex_literalBody h []
    refine ⟨rest, operand, more, matched, compared, ?_⟩
    have opens : step .ground '\'' = ([], .string []) := by decide
    rw [lex_trimStart, starts, lex_cons, opens]
    simpa using read
  · cases h

theorem takeWhile_digits {s : Str} (digits : (s.takeWhile isParamPart).all Char.isDigit = true) :
    s.takeWhile isParamPart = s.takeWhile Char.isDigit := by
  induction s with
  | nil => rfl
  | cons c s ih =>
    by_cases part : isParamPart c = true
    · rw [List.takeWhile_cons_of_pos part] at digits ⊢
      rw [List.all_cons, Bool.and_eq_true] at digits
      rw [List.takeWhile_cons_of_pos digits.1, ih digits.2]
    · have notDigit : ¬ c.isDigit = true := by
        intro digit
        simp [isParamPart, digit] at part
      rw [List.takeWhile_cons_of_neg part, List.takeWhile_cons_of_neg notDigit]

theorem extractShardKeyParam_split {sql column : Str} {i : Nat} (h : extractShardKeyParam sql column = some i) :
    ∃ rest operand, afterWhereColumn sql column = some rest ∧ skipColumnAndEq rest = some operand ∧
      ∀ p more, lex .ground operand = some (.param p :: more) → p.all Char.isDigit = true →
        parseUsize p = some (i + 1) := by
  obtain ⟨rest, matched, h⟩ := Option.bind_eq_some_iff.mp h
  obtain ⟨operand, compared, h⟩ := Option.bind_eq_some_iff.mp h
  refine ⟨rest, operand, matched, compared, ?_⟩
  intro p more read digits
  split at h
  · rename_i s starts
    have placeholder : lex (.param []) s = some (.param p :: more) := by
      have opens : step .ground '$' = ([], .param []) := by decide
      rw [lex_trimStart, starts, lex_cons, opens] at read
      simpa using read
    have all := lex_param placeholder
    rw [List.nil_append] at all
    rw [all] at digits ⊢
    rw [takeWhile_digits digits]
    obtain ⟨n, number, found⟩ := Option.bind_eq_some_iff.mp h
    cases n with
    | zero => cases found
    | succ n =>
      obtain rfl := Option.some.inj found
      exact number
  · cases h

/-! ### The key of a row -/

/-- The search finds the key in the text's own condition, as its first conjunct. -/
structure FirstConjunct (sql column : Str) (pos : Nat) (before ts select : List Token) : Prop where
  found : find ("WHERE ".toList ++ toAsciiUppercase column) (toAsciiUppercase sql) = some pos
  /-- What is found is no part of a literal, a comment or a longer word. -/
  starts : startsWord (Mode.ground.run (sql.take pos)) = true
  head : tokens (sql.take pos) = some before
  whole : tokens sql = some ts
  /-- The text is one statement, and no set operation. -/
  one : selects ts = [select]
  inside : select <+: ts
  long : before.length + 4 ≤ select.length
  bare : unwrap select = none
  /-- What is found is the statement's own `WHERE`, in no subquery. -/
  level : depth 0 before = 0
  own : afterTop (isWord "WHERE") 0 before = none
  joined : (condition 0 (select.drop (before.length + 4))).head?.all (isWord "AND") = true
  noOr : (splitTop (isWord "OR") 0 (condition 0 (select.drop (before.length + 4)))).length = 1
  placeholder : extractShardKeyLiteral sql column = none →
    ∃ p, ts[before.length + 3]? = some (.param p) ∧ p.all Char.isDigit = true

theorem neutral_of_name {name column : Str} (isName : ColumnName column) (same : eqIgnoreAsciiCase name column = true) :
    Neutral (.word name) := by
  have words : ∀ word, isWord word (.word name) = isWord word (.word column) := by
    intro word
    rw [isWord, isWord, Bool.eq_iff_iff]
    constructor
    · exact eqIgnoreAsciiCase_trans (by rwa [eqIgnoreAsciiCase_comm])
    · exact eqIgnoreAsciiCase_trans same
  refine ⟨nofun, nofun, fun word member => ?_⟩
  rw [words]
  exact isName.neutral.word member

theorem neutral_equals : Neutral (.symbol '=') := by decide

theorem neutral_string (k : Str) : Neutral (.string k) := ⟨nofun, nofun, fun _ _ => rfl⟩

theorem neutral_param (p : Str) : Neutral (.param p) := ⟨nofun, nofun, fun _ _ => rfl⟩

/-- A row of a text whose first conjunct is found makes that conjunct true. -/
theorem FirstConjunct.predicate {N : Type} [DecidableEq N] {row : Row N} {sql column keyword name : Str} {pos : Nat}
    {before ts select more : List Token} {operand : Token} (first : FirstConjunct sql column pos before ts select)
    (isName : ColumnName column) (isWhere : isWord "WHERE" (.word keyword) = true)
    (same : eqIgnoreAsciiCase name column = true) (neutral : Neutral operand)
    (split : ts = before ++ .word keyword :: .word name :: .symbol '=' :: operand :: more)
    (satisfies : row.Satisfies sql) : row.predicate [.word name, .symbol '=', operand] = some true := by
  have satisfied : row.satisfies (ts.length + 1) ts = true := by
    rwa [Row.Satisfies, first.whole] at satisfies
  obtain ⟨rest, selected⟩ : ∃ rest, select = before ++ .word keyword :: ([.word name, .symbol '=', operand] ++ rest) := by
    obtain ⟨tail, whole⟩ := first.inside
    have long := first.long
    rw [split, List.append_eq_append_iff] at whole
    rcases whole with ⟨rest, shorter, _⟩ | ⟨rest, longer, text⟩
    · have lengths := congrArg List.length shorter
      rw [List.length_append] at lengths
      omega
    · rw [longer, List.length_append] at long
      rcases rest with _ | ⟨a, _ | ⟨b, _ | ⟨c, _ | ⟨d, rest⟩⟩⟩⟩
      all_goals simp only [List.length_cons, List.length_nil] at long
      any_goals omega
      simp only [List.cons_append, List.cons.injEq] at text
      obtain ⟨rfl, rfl, rfl, rfl, -⟩ := text
      exact ⟨rest, longer⟩
  have dropped : select.drop (before.length + 4) = rest := by
    rw [selected]
    simp
  have cond : whereOf select = some ([.word name, .symbol '=', operand] ++ condition 0 rest) := by
    have neutrals : ∀ t ∈ [.word name, .symbol '=', operand], Neutral t := by
      simp [neutral_of_name isName same, neutral_equals, neutral]
    rw [whereOf, selected, afterTop_append first.own, first.level, afterTop, if_pos ⟨rfl, isWhere⟩, Option.map_some,
      condition_neutral neutrals]
  rw [Row.satisfies] at satisfied
  simp only [first.one, first.bare, cond, decide_eq_true_eq] at satisfied
  have joined := first.joined
  have noOr := first.noOr
  rw [dropped] at joined noOr
  exact truth_first (by simp [neutral_of_name isName same, neutral_equals, neutral]) joined noOr satisfied

/-- Every row of the text has the key that it is routed by. -/
def Pinned (N : Type) [DecidableEq N] (sql column : Str) (shardKey : Option Str) (shardKeyParam : Option Nat) : Prop :=
  ∀ row : Row N, row.Satisfies sql → (∀ k, shardKey = some k → row.column column = .text k) ∧
    ∀ i, shardKeyParam = some i → row.column column = row.bound i ∧ row.bound i ≠ .null

theorem pinned_of_first {N : Type} [DecidableEq N] {sql column table : Str} {shardKey : Option Str}
    {shardKeyParam : Option Nat}
    (classified : classifyQuestdbPassthrough sql column = .ok (.singleShard table shardKey shardKeyParam))
    (isName : ColumnName column) (first : ∃ pos before ts select, FirstConjunct sql column pos before ts select) :
    Pinned N sql column shardKey shardKeyParam := by
  intro row satisfies
  obtain ⟨pos, before, ts, select, first⟩ := first
  have operandTokens : ∀ {rest operand}, afterWhereColumn sql column = some rest →
      skipColumnAndEq rest = some operand → ∃ keyword name others,
        isWord "WHERE" (.word keyword) = true ∧ eqIgnoreAsciiCase name column = true ∧
        lex .ground operand = some others ∧ ts = before ++ .word keyword :: .word name :: .symbol '=' :: others := by
    intro rest operand matched compared
    obtain ⟨pos', keyword, name, found, isWhere, same, text⟩ := tokens_at_match isName matched compared
    rw [first.found] at found
    obtain rfl := Option.some.inj found
    have whole := text before first.starts first.head
    rw [first.whole] at whole
    obtain ⟨others, read, split⟩ := Option.map_eq_some_iff.mp whole.symm
    exact ⟨keyword, name, others, isWhere, same, read, split.symm⟩
  have equal : ∀ {name : Str} {v : Val N}, eqIgnoreAsciiCase name column = true →
      (row.column name).equal v = some true → row.column column = v ∧ row.column column ≠ .null := by
    intro name v same compared
    rw [row.column_congr same] at compared
    exact Val.equal_eq_true.mp compared
  unfold classifyQuestdbPassthrough at classified
  split at classified
  · cases classified
  rename_i found
  split at classified
  · rename_i key extracted
    cases classified
    refine ⟨?_, nofun⟩
    rintro _ ⟨⟩
    obtain ⟨rest, operand, more, matched, compared, literal⟩ := extractShardKeyLiteral_split extracted
    obtain ⟨keyword, name, others, isWhere, same, read, split⟩ := operandTokens matched compared
    rw [literal] at read
    obtain ⟨others, _, rfl⟩ := Option.map_eq_some_iff.mp read
    have holds := first.predicate isName isWhere same (neutral_string key) split satisfies
    exact (equal same holds).1
  split at classified
  · rename_i missing _ index extracted
    cases classified
    refine ⟨nofun, ?_⟩
    rintro i ⟨⟩
    obtain ⟨rest, operand, matched, compared, number⟩ := extractShardKeyParam_split extracted
    obtain ⟨p, here, digits⟩ := first.placeholder missing
    obtain ⟨keyword, name, others, isWhere, same, read, split⟩ := operandTokens matched compared
    obtain ⟨more, rfl⟩ : ∃ more, others = .param p :: more := by
      rw [split] at here
      cases others with
      | nil => simp at here
      | cons t more => exact ⟨more, by simpa using here⟩
    have holds := first.predicate isName isWhere same (neutral_param p) split satisfies
    simp only [Row.predicate, number p more read digits] at holds
    obtain ⟨value, present⟩ := equal same holds
    exact ⟨value, value ▸ present⟩
  · cases classified

/-- An alternative of the text's condition is one predicate, and no comparison of a column with a literal or a
placeholder. What it means is not read, so it is taken for one that some row makes true. -/
def FreeAlternative (sql : Str) : Prop :=
  ∃ ts select cond part, tokens sql = some ts ∧ selects ts = [select] ∧ unwrap select = none ∧
    whereOf select = some cond ∧ part ∈ splitTop (isWord "OR") 0 cond ∧ part ≠ [] ∧ (∀ t ∈ part, Neutral t) ∧
    ∀ x operand, part ≠ [.word x, .symbol '=', operand]

/-- A row of nulls that makes every other predicate true. -/
def nullRow (N : Type) : Row N where
  column _ := .null
  bound _ := .null
  atom _ := some true
  column_congr _ := rfl

theorem nullRow_satisfies {N : Type} [DecidableEq N] {sql : Str} (free : FreeAlternative sql) :
    (nullRow N).Satisfies sql := by
  obtain ⟨ts, select, cond, part, whole, one, bare, own, member, nonempty, neutral, other⟩ := free
  have holds : (nullRow N).predicate part = some true := by
    unfold Row.predicate
    split
    · exact (other _ _ rfl).elim
    · exact (other _ _ rfl).elim
    · rfl
  have true_cond := truth_alternative member nonempty neutral holds cond.length
  rw [Row.Satisfies, whole, Option.any_some, Row.satisfies]
  simp only [one, bare, own, true_cond, decide_true]

/-- The key that a text is routed by is the key of all of its rows if the search finds it in the text's own
condition, as a conjunct. It is not if the condition has an alternative that is another predicate, as long as some
row makes that one true. -/
theorem classifyQuestdbPassthrough_pins (N : Type) [DecidableEq N] {sql column table : Str} {shardKey : Option Str}
    {shardKeyParam : Option Nat}
    (classified : classifyQuestdbPassthrough sql column = .ok (.singleShard table shardKey shardKeyParam)) :
    (ColumnName column → (∃ pos before ts select, FirstConjunct sql column pos before ts select) →
      Pinned N sql column shardKey shardKeyParam) ∧
    (FreeAlternative sql → ¬ Pinned N sql column shardKey shardKeyParam) := by
  refine ⟨pinned_of_first classified, fun free pinned => ?_⟩
  obtain ⟨literal, param⟩ := pinned (nullRow N) (nullRow_satisfies free)
  obtain ⟨_, _, _, ⟨⟩, ⟨key, rfl, rfl⟩ | ⟨i, rfl, rfl⟩⟩ := classifyQuestdbPassthrough_oneKey classified
  · cases literal key rfl
  · exact (param i rfl).2 rfl

/-- A row with one text in every column, for which every other predicate is true. -/
def rowWith (text : Str) : Row Nat where
  column _ := .text text
  bound _ := .text text
  atom _ := some true
  column_congr _ := rfl

def symbolColumn : Str := "symbol".toList

theorem symbolColumn_name : ColumnName symbolColumn where
  start := ⟨'s', rfl, by decide⟩
  parts := List.all_eq_true.mp (by decide)
  neutral := by decide

def andText : Str := "SELECT ts FROM trades WHERE symbol = 'A' AND price > 5 SAMPLE BY 1h".toList

def andTokens : List Token :=
  [.word "SELECT".toList, .word "ts".toList, .word "FROM".toList, .word "trades".toList, .word "WHERE".toList,
    .word symbolColumn, .symbol '=', .string "A".toList, .word "AND".toList, .word "price".toList, .symbol '>',
    .number "5".toList, .word "SAMPLE".toList, .word "BY".toList, .number "1".toList, .word "h".toList]

theorem andText_first : FirstConjunct andText symbolColumn 22 (andTokens.take 4) andTokens andTokens where
  found := by decide +kernel
  starts := by decide +kernel
  head := by decide +kernel
  whole := by decide +kernel
  one := by decide +kernel
  inside := List.prefix_refl _
  long := by decide +kernel
  bare := by decide +kernel
  level := by decide +kernel
  own := by decide +kernel
  joined := by decide +kernel
  noOr := by decide +kernel
  placeholder := fun missing => absurd missing (by decide +kernel)

theorem andText_pins :
    (rowWith "A".toList).column symbolColumn = .text "A".toList := by
  have classified : classifyQuestdbPassthrough andText symbolColumn =
      .ok (.singleShard "trades".toList (some "A".toList) none) := by decide +kernel
  have satisfies : (rowWith "A".toList).Satisfies andText := by
    unfold Row.Satisfies
    decide +kernel
  exact ((classifyQuestdbPassthrough_pins Nat classified).1 symbolColumn_name ⟨_, _, _, _, andText_first⟩ _
    satisfies).1 _ rfl

def orText : Str := "SELECT ts FROM trades WHERE symbol = 'A' OR price > 5 SAMPLE BY 1h".toList

/-- A row of another key satisfies the condition, whose second alternative the search does not see. -/
theorem alternative_unpinned :
    classifyQuestdbPassthrough orText symbolColumn = .ok (.singleShard "trades".toList (some "A".toList) none) ∧
      (rowWith "B".toList).Satisfies orText ∧ (rowWith "B".toList).column symbolColumn ≠ .text "A".toList := by
  unfold Row.Satisfies
  decide +kernel

end QuestRouter.Routing
