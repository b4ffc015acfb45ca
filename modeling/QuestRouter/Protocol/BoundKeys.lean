import QuestRouter.Protocol.InlinedValues
import QuestRouter.Routing.DialectSearch
import QuestRouter.Text.Finding

/-!
# A key bound and a key inlined

A literal is read back as the text that was quoted, and one that is never closed is not read. A dialect text whose
key is a placeholder is routed by the value bound to it; inlined, by the literal put in its place. The two agree but
for the table name, which is looked for in the whole text: a ` FROM ` of the value may come first.
-/

namespace QuestRouter.Protocol
open Text Sql Routing Metadata

/-! ### Reading a literal -/

theorem literalBody_close {s : Str} (stops : s.head? ≠ some '\'') : literalBody ('\'' :: s) = some [] := by
  cases s with
  | nil => rfl
  | cons c s =>
    rw [literalBody]
    rintro t ⟨⟩
    exact stops rfl

theorem literalBody_char {c : Char} (other : c ≠ '\'') (s : Str) :
    literalBody (c :: s) = (literalBody s).map (c :: ·) := by
  rw [literalBody]
  · rintro t rfl
    exact (other rfl).elim
  · rintro rfl
    exact other rfl

theorem literalBody_doubled (value s : Str) :
    literalBody (doubled '\'' value ++ s) = (literalBody s).map (value ++ ·) := by
  induction value with
  | nil => exact Option.map_id'.symm
  | cons c value ih =>
    by_cases quote : c = '\''
    · subst quote
      rw [doubled_quote, List.cons_append, List.cons_append, literalBody, ih, Option.map_map]
      rfl
    · rw [doubled_other quote, List.cons_append, literalBody_char quote, ih, Option.map_map]
      rfl

/-- The text begins with this value in quotes, and the closing quote is no doubled one. -/
def Closes (value s : Str) : Prop := ∃ rest, s = doubled '\'' value ++ '\'' :: rest ∧ rest.head? ≠ some '\''

theorem literalBody_iff {s value : Str} : literalBody s = some value ↔ Closes value s := by
  constructor
  · intro read
    fun_induction literalBody s generalizing value with
    | case1 => cases read
    | case2 s ih =>
      obtain ⟨inner, inside, rfl⟩ := Option.map_eq_some_iff.mp read
      obtain ⟨rest, rfl, stops⟩ := ih inside
      exact ⟨rest, by rw [doubled_quote]; rfl, stops⟩
    | case3 s single =>
      obtain rfl := Option.some.inj read
      refine ⟨s, rfl, fun head => ?_⟩
      obtain ⟨t, rfl⟩ := List.head?_eq_some_iff.mp head
      exact single t rfl
    | case4 c s _ other ih =>
      obtain ⟨inner, inside, rfl⟩ := Option.map_eq_some_iff.mp read
      obtain ⟨rest, rfl, stops⟩ := ih inside
      have plain : c ≠ '\'' := fun same => other same
      exact ⟨rest, by rw [doubled_other plain]; rfl, stops⟩
  · rintro ⟨rest, rfl, stops⟩
    rw [literalBody_doubled, literalBody_close stops, Option.map_some, List.append_nil]

/-- A text is read as a literal exactly if it is one that is closed. -/
theorem parseSqlStringLiteral_iff {s value : Str} :
    parseSqlStringLiteral s = some value ↔ ∃ body, trimStart s = '\'' :: body ∧ Closes value body := by
  unfold parseSqlStringLiteral
  split
  · rename_i body starts
    rw [literalBody_iff, starts]
    constructor
    · exact fun closes => ⟨body, rfl, closes⟩
    · rintro ⟨_, ⟨⟩, closes⟩
      exact closes
  · rename_i other
    refine iff_of_false nofun ?_
    rintro ⟨body, starts, _⟩
    exact other body starts

/-- A literal that holds a placeholder is rewritten, and is not read as its text. -/
theorem literalBody_rewritten {params : List Str} (n : Nat) {value : Str} (found : Occurs n value) (s : Str) :
    literalBody (inlineUpTo params n (doubled '\'' value) ++ s) ≠ some value := by
  obtain ⟨before, after, c, rest, rfl, begins, rewritten⟩ := @inlineUpTo_rewrites params n _ found
  rw [rewritten, List.append_assoc, literalBody_doubled, List.cons_append]
  intro read
  obtain ⟨inner, inside, same⟩ := Option.map_eq_some_iff.mp read
  obtain rfl := List.append_cancel_left same
  rcases begins with rfl | rfl
  · rw [literalBody_char (by decide)] at inside
    obtain ⟨_, _, same⟩ := Option.map_eq_some_iff.mp inside
    cases same
  · obtain ⟨t, split, _⟩ := literalBody_iff.mp inside
    rw [doubled_other (by decide)] at split
    cases split

/-! ### Where the key predicate stands -/

theorem trimStart_append {c : Char} (solid : isWhitespace c = false) (lead s : Str) :
    trimStart (lead ++ c :: s) = trimStart lead ++ c :: s := by
  have stops : trimStart (c :: s) = c :: s := List.dropWhile_cons_of_neg (by simp [solid])
  rw [trimStart, List.dropWhile_append]
  split
  · rename_i blank
    rw [show trimStart lead = [] from List.isEmpty_iff.mp blank]
    exact stops
  · rfl

theorem skipColumnAndEq_gap {rest operand : Str} (h : skipColumnAndEq rest = some operand) :
    ∃ before after, rest = before ++ '=' :: (after ++ operand) ∧ trimStart before = [] ∧
      ∀ c ∈ after, isWhitespace c = true := by
  unfold skipColumnAndEq at h
  split at h
  · rename_i behind equals
    obtain rfl := Option.some.inj h
    refine ⟨rest.takeWhile isWhitespace, behind.takeWhile isWhitespace, ?_, ?_, fun c => List.mem_takeWhile_imp⟩
    · rw [trimStart, List.takeWhile_append_dropWhile, ← equals, trimStart, List.takeWhile_append_dropWhile]
    · rw [trimStart, List.dropWhile_eq_nil_iff]
      exact fun c => List.mem_takeWhile_imp
  · cases h

theorem skipColumnAndEq_passes {before after : Str} (blank : trimStart before = [])
    (blanks : ∀ c ∈ after, isWhitespace c = true) {c : Char} (solid : isWhitespace c = false) (s : Str) :
    skipColumnAndEq (before ++ '=' :: (after ++ c :: s)) = some (c :: s) := by
  have nothing : trimStart after = [] := List.dropWhile_eq_nil_iff.mpr blanks
  have equals : trimStart (before ++ '=' :: (after ++ c :: s)) = '=' :: (after ++ c :: s) := by
    rw [trimStart_append (by decide), blank, List.nil_append]
  simp only [skipColumnAndEq, equals]
  rw [trimStart_append solid, nothing, List.nil_append]

/-- What the search finds depends on the text before the operand only. -/
theorem predicate_anywhere {sql column head operand : Str} (text : sql = head ++ operand)
    (h : (afterWhereColumn sql column).bind skipColumnAndEq = some operand) :
    ∃ lead blanks, head = lead ++ '=' :: blanks ∧ (∀ c ∈ blanks, isWhitespace c = true) ∧
      ∀ c s, isWhitespace c = false →
        (afterWhereColumn (head ++ c :: s) column).bind skipColumnAndEq = some (c :: s) := by
  obtain ⟨rest, matched, skipped⟩ := Option.bind_eq_some_iff.mp h
  obtain ⟨pos, found, dropped⟩ := Option.bind_eq_some_iff.mp matched
  obtain ⟨before, after, split, blank, blanks⟩ := skipColumnAndEq_gap skipped
  have inside := find_le found
  rw [length_toAsciiUppercase] at inside
  generalize stop : pos + ("WHERE ".toList ++ toAsciiUppercase column).length = place at dropped inside
  have dropped : sql.drop place = rest := Option.some.inj dropped
  have shape : head = sql.take place ++ (before ++ '=' :: after) := by
    have whole : sql.take place ++ rest = head ++ operand := by rw [← dropped, List.take_append_drop, text]
    rw [split] at whole
    have ends : head ++ operand = (sql.take place ++ (before ++ '=' :: after)) ++ operand := by
      rw [← whole]
      simp
    exact List.append_cancel_right ends
  have first : find ("WHERE ".toList ++ toAsciiUppercase column) (toAsciiUppercase (sql.take place)) = some pos := by
    have whole : toAsciiUppercase sql = toAsciiUppercase (sql.take place) ++ toAsciiUppercase rest := by
      rw [← dropped, ← toAsciiUppercase_append, List.take_append_drop]
    rw [whole] at found
    refine find_of_append found ?_
    rw [stop, length_toAsciiUppercase, List.length_take]
    omega
  refine ⟨sql.take place ++ before, after, by rw [shape, List.append_assoc], blanks, fun c s solid => ?_⟩
  have later : afterWhereColumn (head ++ c :: s) column = some (before ++ '=' :: (after ++ c :: s)) := by
    have front : head ++ c :: s = sql.take place ++ (before ++ '=' :: (after ++ c :: s)) := by rw [shape]; simp
    have again : find ("WHERE ".toList ++ toAsciiUppercase column)
        (toAsciiUppercase (sql.take place ++ (before ++ '=' :: (after ++ c :: s)))) = some pos := by
      rw [toAsciiUppercase_append]
      exact find_append_left first _
    have length : (sql.take place).length = place := by
      rw [List.length_take]
      omega
    rw [front]
    refine Option.bind_eq_some_iff.mpr ⟨pos, again, ?_⟩
    rw [stop, List.drop_left' length]
  rw [later, Option.bind_some, skipColumnAndEq_passes blank blanks solid]

/-! ### The name of the table -/

def endsName (c : Char) : Bool := isWhitespace c || c == ',' || c == ';'

/-- The name behind a ` FROM `. -/
def tableName (s : Str) : Option Str :=
  let name := trim ((trimStart s).takeWhile fun c => !endsName c)
  if name.isEmpty || name == ['('] then none else some (lastSegment '.' name)

theorem extractFromTable_eq (sql : Str) :
    extractFromTable sql =
      (find " FROM ".toList (toAsciiUppercase sql)).bind fun pos => tableName (sql.drop (pos + 6)) := rfl

theorem trim_solid {s : Str} (solid : ∀ c ∈ s, isWhitespace c = false) : trim s = s := by
  have kept : ∀ {t : Str}, (∀ c ∈ t, isWhitespace c = false) → trimStart t = t := by
    intro t solid
    cases t with
    | nil => rfl
    | cons c t => exact List.dropWhile_cons_of_neg (by simp [solid c List.mem_cons_self])
  rw [trim, kept solid, kept (by simpa using solid), List.reverse_reverse]

def isName (name : Str) : Bool := !(name.isEmpty || name == ['('])

theorem tableName_isSome (s : Str) :
    (tableName s).isSome = isName ((trimStart s).takeWhile fun c => !endsName c) := by
  have solid : ∀ c ∈ (trimStart s).takeWhile (fun c => !endsName c), isWhitespace c = false := by
    intro c member
    have kept := List.mem_takeWhile_imp member
    simp only [endsName, Bool.not_eq_true', Bool.or_eq_false_iff] at kept
    exact kept.1.1
  rw [tableName, trim_solid solid, isName]
  generalize (trimStart s).takeWhile (fun c => !endsName c) = name
  cases name.isEmpty || name == ['('] <;> rfl

theorem isName_takeWhile (lead s : Str) :
    isName ((lead ++ '=' :: s).takeWhile fun c => !endsName c) =
      ((lead.all fun c => !endsName c) || isName (lead.takeWhile fun c => !endsName c)) := by
  cases whole : lead.all fun c => !endsName c with
  | true =>
    rw [List.takeWhile_append_of_pos (List.all_eq_true.mp whole), List.takeWhile_cons_of_pos (by decide), Bool.true_or]
    have other : lead ++ '=' :: s.takeWhile (fun c => !endsName c) ≠ ['('] := by
      intro same
      have member : '=' ∈ ['('] := same ▸ List.mem_append_right _ List.mem_cons_self
      exact absurd member (by decide)
    simp [isName, other]
  | false =>
    rw [List.takeWhile_append, if_neg, Bool.false_or]
    intro lengths
    have all := (List.takeWhile_prefix (fun c => !endsName c)).eq_of_length lengths
    rw [List.all_eq_true.mpr (List.takeWhile_eq_self_iff.mp all)] at whole
    cases whole

/-- Whether there is a name does not depend on what follows an equals sign. -/
theorem tableName_equals (lead s t : Str) :
    (tableName (lead ++ '=' :: s)).isSome = (tableName (lead ++ '=' :: t)).isSome := by
  rw [tableName_isSome, tableName_isSome, trimStart_append (by decide), trimStart_append (by decide), isName_takeWhile,
    isName_takeWhile]

theorem toUpper_blank {c : Char} (blank : isWhitespace c = true) : c.toUpper = c := by
  refine Char.toUpper_eq_of_not_isLower fun lower => ?_
  have part : isIdentPart c = true := by simp [isIdentPart, isIdentStart, isLetter, Char.isAlpha, lower]
  rw [not_blank_of_identPart part] at blank
  cases blank

theorem extractFromTable_behind {head lead blanks : Str} (shape : head = lead ++ '=' :: blanks)
    (blank : ∀ c ∈ blanks, isWhitespace c = true)
    (found : contains (toAsciiUppercase head) " FROM ".toList = true) (s t : Str) :
    (extractFromTable (head ++ s)).isSome = (extractFromTable (head ++ t)).isSome := by
  have inside : " FROM ".toList <:+: toAsciiUppercase lead := by
    rw [contains_iff, shape, toAsciiUppercase_append] at found
    rcases infix_fresh (show '=' ∉ " FROM ".toList by decide) found with front | back
    · exact front
    · have letter : 'F' ∈ toAsciiUppercase blanks := back.subset (by decide)
      obtain ⟨c, member, upper⟩ := List.mem_map.mp letter
      rw [toUpper_blank (blank c member)] at upper
      rw [upper] at member
      exact absurd (blank 'F' member) (by decide)
  obtain ⟨pos, first⟩ := Option.isSome_iff_exists.mp (find_isSome_iff.mpr inside)
  have short : pos + 6 ≤ (toAsciiUppercase lead).length := find_le first
  rw [length_toAsciiUppercase] at short
  have name : ∀ u, extractFromTable (head ++ u) = tableName (lead.drop (pos + 6) ++ '=' :: (blanks ++ u)) := by
    intro u
    have text : head ++ u = lead ++ '=' :: (blanks ++ u) := by rw [shape, List.append_assoc, List.cons_append]
    rw [text, extractFromTable_eq, toAsciiUppercase_append, find_append_left first, Option.bind_some,
      List.drop_append_of_le_length short]
  rw [name, name, tableName_equals]

theorem extractFromTable_skip {head : Str} (absent : find " FROM ".toList (toAsciiUppercase head) = none) {c : Char}
    (fresh : c.toUpper ∉ " FROM ".toList) (s : Str) : extractFromTable (head ++ c :: s) = extractFromTable s := by
  have upper : toAsciiUppercase (head ++ c :: s) = toAsciiUppercase head ++ c.toUpper :: toAsciiUppercase s :=
    toAsciiUppercase_append head (c :: s)
  rw [extractFromTable_eq, extractFromTable_eq, upper, find_append_right (by decide) absent fresh, Option.bind_map]
  congr 1
  funext pos
  rw [length_toAsciiUppercase, Function.comp_apply, show head ++ c :: s = (head ++ [c]) ++ s by simp,
    show pos + (head.length + 1) + 6 = (head ++ [c]).length + (pos + 6) by rw [List.length_append]; simp; omega,
    List.drop_length_add_append]

theorem toUpper_digit {c : Char} (digit : c.isDigit = true) : c.toUpper = c := by
  refine Char.toUpper_eq_of_not_isLower fun lower => ?_
  simp only [Char.isDigit, Char.isLower, Bool.and_eq_true, decide_eq_true_eq, UInt32.le_iff_toNat_le] at digit lower
  simp at digit lower
  omega

/-- A word of letters and blanks has no character of a placeholder. -/
theorem placeholder_fresh {pat : Str} (words : pat.all (fun d => d != '$' && !d.isDigit) = true) (k : Nat) :
    ∀ c ∈ toAsciiUppercase (placeholder k), c ∉ pat := by
  intro c member inside
  have other := List.all_eq_true.mp words c inside
  obtain ⟨d, here, rfl⟩ := List.mem_map.mp member
  rcases List.mem_cons.mp here with rfl | digit
  · exact absurd other (by decide)
  · have digit := isDigit_of_mem_decimal digit
    rw [toUpper_digit digit, digit, Bool.not_true, Bool.and_false] at other
    cases other

theorem extractFromTable_digits {digits : Str} (all : ∀ c ∈ digits, c.isDigit = true) (tail : Str) :
    extractFromTable (digits ++ tail) = extractFromTable tail := by
  induction digits with
  | nil => rfl
  | cons c digits ih =>
    obtain ⟨digit, later⟩ := List.forall_mem_cons.mp all
    have fresh : c.toUpper ∉ " FROM ".toList := by
      rw [toUpper_digit digit]
      intro member
      have none : ∀ d ∈ " FROM ".toList, (!d.isDigit) = true := List.all_eq_true.mp (by decide +kernel)
      have other := none c member
      rw [digit] at other
      cases other
    have absent : find " FROM ".toList (toAsciiUppercase []) = none := rfl
    have skipped := extractFromTable_skip absent fresh (digits ++ tail)
    rw [List.nil_append] at skipped
    rw [List.cons_append, skipped, ih later]

/-! ### The two routes -/

/-- What stands for the placeholder `$k` in the inlined text: the literal of its value, with the placeholders of
smaller numbers in it replaced in turn. -/
def literalAt (params : List Str) (k : Nat) : Str := inlineUpTo params (k - 1) (rendered params k)

/-- A dialect text whose key predicate compares the column with `$k`, which is the only placeholder. -/
structure KeyPlaceholder (sql column : Str) (n k : Nat) (head tail : Str) : Prop where
  dialect : hasQuestdbExtension sql = true
  text : sql = head ++ (placeholder k ++ tail)
  predicate : (afterWhereColumn sql column).bind skipColumnAndEq = some (placeholder k ++ tail)
  index : extractShardKeyParam sql column = some (k - 1)
  whole : ∀ c ∈ tail.head?, c.isDigit = false
  bound : 1 ≤ k ∧ k ≤ n
  only : ¬ Occurs n head ∧ ¬ Occurs n tail

/-- On every cluster, the bound text and the inlined text have one route. -/
def RoutesSame (router : DefaultQueryRouter) (sql : Str) (params : List Str) : Prop :=
  ∀ snap routed, router.resolveRoute snap routed sql (some params) =
    router.resolveRoute snap routed (inlineSqlParams sql params) none

section Key
variable {sql column head tail value : Str} {params : List Str} {k : Nat}

theorem KeyPlaceholder.inlined (key : KeyPlaceholder sql column params.length k head tail) :
    inlineSqlParams sql params = head ++ (literalAt params k ++ tail) := by
  have dollar : ∀ c ∈ (placeholder k ++ tail).head?, c.isDigit = false := by
    rintro c ⟨⟩
    decide
  have kept : ∀ {s : Str}, ¬ Occurs params.length s → inlineUpTo params params.length s = s := fun absent =>
    ((inlineUpTo_compares params params.length _).same absent).symm
  rw [inlineSqlParams_eq, key.text, inlineUpTo_append params _ _ dollar, kept key.only.1,
    inlineUpTo_append params _ _ key.whole, kept key.only.2, inlineUpTo_placeholder params key.bound.1 key.bound.2]
  rfl

theorem literalAt_quoted (bound : params[k - 1]? = some value) (other : eqIgnoreAsciiCase value nullText = false)
    (s : Str) : literalAt params k ++ s = '\'' :: (inlineUpTo params (k - 1) (doubled '\'' value) ++ '\'' :: s) := by
  have same : rendered params k = paramLiteral value := by rw [rendered, bound, Option.getD_some]
  rw [literalAt, same, inlineUpTo_quoted other]

/-- The literal is read as the value if nothing in it is rewritten and no quote follows. -/
theorem literalAt_read (n : Nat) :
    literalBody (inlineUpTo params n (doubled '\'' value) ++ '\'' :: tail) = some value ↔
      ¬ Occurs n value ∧ tail.head? ≠ some '\'' := by
  by_cases found : Occurs n value
  · exact iff_of_false (literalBody_rewritten n found _) fun both => both.1 found
  · rw [← (inlineUpTo_compares params n (doubled '\'' value)).same (by rwa [occurs_doubled]), literalBody_doubled]
    constructor
    · intro read
      refine ⟨found, fun quote => ?_⟩
      obtain ⟨rest, rfl⟩ := List.head?_eq_some_iff.mp quote
      obtain ⟨inner, inside, same⟩ := Option.map_eq_some_iff.mp read
      have nothing : inner = [] := List.append_right_eq_self.mp same
      rw [literalBody, nothing] at inside
      obtain ⟨_, _, empty⟩ := Option.map_eq_some_iff.mp inside
      cases empty
    · rintro ⟨_, stops⟩
      rw [literalBody_close stops, Option.map_some, List.append_nil]

theorem extractShardKeyLiteral_eq (sql column : Str) :
    extractShardKeyLiteral sql column =
      ((afterWhereColumn sql column).bind skipColumnAndEq).bind parseSqlStringLiteral :=
  (Option.bind_assoc _ _ _).symm

/-- The dialect's words have no dollar sign, no digit and no quote: they stand before or behind the placeholder. -/
theorem hasQuestdbExtension_elsewhere {mid : Str} (some : mid ≠ [])
    (fresh : ∀ c ∈ toAsciiUppercase mid, c ∉ "SAMPLE BY".toList ∧ c ∉ "LATEST ON".toList)
    (dialect : hasQuestdbExtension (head ++ (mid ++ tail)) = true) (other : Str) :
    hasQuestdbExtension (head ++ (other ++ tail)) = true := by
  have nonempty : toAsciiUppercase mid ≠ [] := by simpa [toAsciiUppercase] using some
  have moved : ∀ {pat : Str}, (∀ c ∈ toAsciiUppercase mid, c ∉ pat) →
      pat <:+: toAsciiUppercase (head ++ (mid ++ tail)) → pat <:+: toAsciiUppercase (head ++ (other ++ tail)) := by
    intro pat fresh inside
    rw [toAsciiUppercase_append, toAsciiUppercase_append] at inside ⊢
    rcases infix_fresh_text fresh nonempty inside with front | back
    · exact front.trans (List.prefix_append _ _).isInfix
    · exact back.trans ((List.suffix_append _ _).trans (List.suffix_append _ _)).isInfix
  simp only [hasQuestdbExtension, Bool.or_eq_true, contains_iff] at dialect ⊢
  rcases dialect with sample | latest
  · exact .inl (moved (fun c member => (fresh c member).1) sample)
  · exact .inr (moved (fun c member => (fresh c member).2) latest)

def noTable : SqlRouteError :=
  .unsupported (questdbDialectPrefix ++ " could not extract table from FROM clause".toList)

def noKey (column : Str) : SqlRouteError :=
  .unsupported (questdbDialectPrefix ++ " queries require a shard-key predicate (e.g. WHERE ".toList ++ column ++
    " = 'X')".toList)

theorem noKey_ne_noTable (column : Str) : noKey column ≠ noTable := by
  intro same
  rw [noKey, noTable, SqlRouteError.unsupported.injEq, List.append_assoc, List.append_assoc,
    List.append_cancel_left_eq] at same
  have second := congrArg (·[1]?) same
  rw [List.getElem?_append_left (by decide)] at second
  exact absurd second (by decide +kernel)

theorem from_noKey_ne_noTable (column : Str) : RoutingError.from (noKey column) ≠ .from noTable := by
  intro same
  apply noKey_ne_noTable column
  rw [noKey, noTable]
  exact congrArg SqlRouteError.unsupported (by injection same)

theorem KeyPlaceholder.classified (key : KeyPlaceholder sql column params.length k head tail) :
    classifyQuestdbPassthrough sql column =
      match extractFromTable sql with
      | none => .error noTable
      | some table => .ok (.singleShard table none (some (k - 1))) := by
  have noLiteral : extractShardKeyLiteral sql column = none := by
    rw [extractShardKeyLiteral_eq, key.predicate]
    rfl
  rw [classifyQuestdbPassthrough, noLiteral, key.index]
  rfl

theorem classified_literal {body : Str}
    (predicate : (afterWhereColumn sql column).bind skipColumnAndEq = some ('\'' :: body)) :
    classifyQuestdbPassthrough sql column =
      match extractFromTable sql with
      | none => .error noTable
      | some table =>
        match literalBody body with
        | some literal => .ok (.singleShard table (some literal) none)
        | none => .error (noKey column) := by
  have literal : extractShardKeyLiteral sql column = literalBody body := by
    rw [extractShardKeyLiteral_eq, predicate]
    rfl
  have noParam : extractShardKeyParam sql column = none := by
    have whole : extractShardKeyParam sql column = ((afterWhereColumn sql column).bind skipColumnAndEq).bind _ :=
      (Option.bind_assoc _ _ _).symm
    rw [whole, predicate]
    rfl
  rw [classifyQuestdbPassthrough, literal, noParam]
  rfl

/-- The inlined text has a table name exactly if the bound one has. -/
theorem sameTable_iff (key : KeyPlaceholder sql column params.length k head tail) {body : Str}
    (literal : literalAt params k ++ tail = '\'' :: body) :
    (extractFromTable sql).isSome = (extractFromTable (inlineSqlParams sql params)).isSome ↔
      contains (toAsciiUppercase head) " FROM ".toList = true ∨
        (extractFromTable (literalAt params k ++ tail)).isSome = (extractFromTable tail).isSome := by
  obtain ⟨lead, blanks, shape, blank, _⟩ := predicate_anywhere key.text key.predicate
  rw [key.inlined, literal]
  cases found : contains (toAsciiUppercase head) " FROM ".toList with
  | true =>
    have same := extractFromTable_behind shape blank found (placeholder k ++ tail) ('\'' :: body)
    rw [← key.text] at same
    exact iff_of_true same (.inl rfl)
  | false =>
    have absent : find " FROM ".toList (toAsciiUppercase head) = none := by
      rwa [contains, Option.isSome_eq_false_iff, Option.isNone_iff_eq_none] at found
    have digits : ∀ c ∈ decimal k, c.isDigit = true := fun c member => isDigit_of_mem_decimal member
    have start : find " FROM ".toList (toAsciiUppercase []) = none := rfl
    have quoted := extractFromTable_skip start (show '\''.toUpper ∉ " FROM ".toList by decide) body
    rw [List.nil_append] at quoted
    have text : extractFromTable sql = extractFromTable tail := by
      rw [key.text, show placeholder k ++ tail = '$' :: (decimal k ++ tail) from rfl,
        extractFromTable_skip absent (by decide), extractFromTable_digits digits]
    rw [text, extractFromTable_skip absent (by decide), quoted, eq_comm]
    simp

variable {router : DefaultQueryRouter} {snap routed : ClusterSnapshot}

/-- The route of a text with a table name, by its key. -/
def routeOf (table : Option Str) (key : Except RoutingError Str) (routed : ClusterSnapshot) :
    Except RoutingError ResolvedRoute :=
  match table with
  | none => .error (.from noTable)
  | some _ => key.bind fun k => (routeKey routed k .pg).map .single

def keyOf (column : Str) : Option Str → Except RoutingError Str
  | some literal => .ok literal
  | none => .error (.from (noKey column))

theorem resolveRoute_bound (key : KeyPlaceholder sql router.defaultShardKey params.length k head tail)
    (bound : params[k - 1]? = some value) :
    router.resolveRoute snap routed sql (some params) = routeOf (extractFromTable sql) (.ok value) routed := by
  rw [DefaultQueryRouter.resolveRoute, DefaultQueryRouter.classify, classifySql, if_pos key.dialect, key.classified]
  cases extractFromTable sql with
  | none => rfl
  | some table =>
    simp only [Except.map, boundParam, Option.bind_some, bound, Option.getD_some]
    rfl

theorem resolveRoute_literal {body : Str} (dialect : hasQuestdbExtension sql = true)
    (predicate : (afterWhereColumn sql router.defaultShardKey).bind skipColumnAndEq = some ('\'' :: body)) :
    router.resolveRoute snap routed sql none =
      routeOf (extractFromTable sql) (keyOf router.defaultShardKey (literalBody body)) routed := by
  rw [DefaultQueryRouter.resolveRoute, DefaultQueryRouter.classify, classifySql, if_pos dialect,
    classified_literal predicate]
  cases extractFromTable sql with
  | none => rfl
  | some table =>
    cases literalBody body <;> rfl

/-- The cluster sends `value` to one of its shards and every other key to the other one. -/
theorem routeOf_sendingKey (table w value : Str) :
    routeOf (some table) (.ok w) (sendingKey value ⟨∅⟩) = .ok (.single (if w = value then shardB else shardA)) := by
  have sent : routeKey (sendingKey value ⟨∅⟩) w .pg = .ok (if w = value then shardB else shardA) :=
    sendingKey_shardForKey value w _ .pg
  rw [routeOf, Except.bind, sent]
  rfl

/-- A value and a literal give one route on all clusters exactly if both texts have a table name or neither has, and
the literal, where it matters, is read as the value. -/
theorem routeOf_same_iff {table inlined read : Option Str} (column : Str) :
    (∀ routed, routeOf table (.ok value) routed = routeOf inlined (keyOf column read) routed) ↔
      (table.isSome = true → read = some value) ∧ table.isSome = inlined.isSome := by
  cases table with
  | none =>
    cases inlined with
    | none => exact iff_of_true (fun _ => rfl) ⟨nofun, rfl⟩
    | some t =>
      refine iff_of_false (fun same => ?_) (fun both => Bool.false_ne_true both.2)
      have here := same (sendingKey value ⟨∅⟩)
      cases read with
      | none => exact from_noKey_ne_noTable column (Except.error.inj here).symm
      | some w =>
        rw [keyOf, routeOf_sendingKey] at here
        cases here
  | some t =>
    cases inlined with
    | none =>
      refine iff_of_false (fun same => ?_) (fun both => Bool.false_ne_true both.2.symm)
      have here := same (sendingKey value ⟨∅⟩)
      rw [routeOf_sendingKey] at here
      cases here
    | some t' =>
      constructor
      · intro same
        refine ⟨fun _ => ?_, rfl⟩
        have here := same (sendingKey value ⟨∅⟩)
        cases read with
        | none =>
          rw [routeOf_sendingKey] at here
          cases here
        | some w =>
          rw [keyOf, routeOf_sendingKey, routeOf_sendingKey, if_pos rfl] at here
          by_cases equal : w = value
          · rw [equal]
          · rw [if_neg equal] at here
            have shards : shardB = shardA := by injection Except.ok.inj here
            exact absurd shards (by decide)
      · intro both routed
        rw [both.1 rfl]
        rfl

theorem routesSame_iff (key : KeyPlaceholder sql router.defaultShardKey params.length k head tail)
    (bound : params[k - 1]? = some value) (other : eqIgnoreAsciiCase value nullText = false) :
    RoutesSame router sql params ↔
      ((extractFromTable sql).isSome = true → ¬ Occurs (k - 1) value ∧ tail.head? ≠ some '\'') ∧
      (contains (toAsciiUppercase head) " FROM ".toList = true ∨
        (extractFromTable (literalAt params k ++ tail)).isSome = (extractFromTable tail).isSome) := by
  have literal := literalAt_quoted bound other tail
  obtain ⟨lead, blanks, _, _, anywhere⟩ := predicate_anywhere key.text key.predicate
  have predicate := anywhere '\'' (inlineUpTo params (k - 1) (doubled '\'' value) ++ '\'' :: tail) (by decide)
  rw [← literal, ← key.inlined, literal] at predicate
  have dialect : hasQuestdbExtension (inlineSqlParams sql params) = true := by
    have before := key.dialect
    rw [key.text] at before
    rw [key.inlined]
    exact hasQuestdbExtension_elsewhere (placeholder_ne_nil k) (fun c member =>
      ⟨placeholder_fresh (by decide) k c member, placeholder_fresh (by decide) k c member⟩) before _
  have routes : RoutesSame router sql params ↔ ∀ routed, routeOf (extractFromTable sql) (.ok value) routed =
      routeOf (extractFromTable (inlineSqlParams sql params)) (keyOf router.defaultShardKey
        (literalBody (inlineUpTo params (k - 1) (doubled '\'' value) ++ '\'' :: tail))) routed := by
    unfold RoutesSame
    simp only [resolveRoute_bound key bound, resolveRoute_literal dialect predicate]
    exact ⟨fun same routed => same routed routed, fun same _ routed => same routed⟩
  rw [routes, routeOf_same_iff, sameTable_iff key literal, ← @literalAt_read tail value params (k - 1)]

/-- Reading a literal undoes quoting, and reads none that is never closed. A text whose only placeholder is its key
is routed the same bound and inlined exactly if the literal put in is read as the value, and the ` FROM ` of the text
stands before the key or the literal with what follows it names a table where what follows it alone does. -/
theorem quoting_undone (key : KeyPlaceholder sql router.defaultShardKey params.length k head tail)
    (bound : params[k - 1]? = some value) (other : eqIgnoreAsciiCase value nullText = false) :
    (∀ v rest, rest.head? ≠ some '\'' →
      parseSqlStringLiteral ('\'' :: (replace v ['\''] ['\'', '\''] ++ '\'' :: rest)) = some v) ∧
    (∀ s, (∀ v body, trimStart s = '\'' :: body → ¬ Closes v body) → parseSqlStringLiteral s = none) ∧
    (RoutesSame router sql params ↔
      ((extractFromTable sql).isSome = true → ¬ Occurs (k - 1) value ∧ tail.head? ≠ some '\'') ∧
      (contains (toAsciiUppercase head) " FROM ".toList = true ∨
        (extractFromTable (literalAt params k ++ tail)).isSome = (extractFromTable tail).isSome)) := by
  refine ⟨fun v rest stops => ?_, fun s unclosed => ?_, routesSame_iff key bound other⟩
  · rw [parseSqlStringLiteral_iff, replace_doubled]
    exact ⟨_, rfl, rest, rfl, stops⟩
  · rw [Option.eq_none_iff_forall_ne_some]
    intro v read
    obtain ⟨body, starts, closes⟩ := parseSqlStringLiteral_iff.mp read
    exact unclosed v body starts closes

end Key

def keyHead : Str := "SELECT ts\nFROM trades\nWHERE symbol = ".toList

def keyTail : Str := " AND price > (SELECT avg(price) FROM trades) SAMPLE BY 1h".toList

def keyText : Str := keyHead ++ ("$1".toList ++ keyTail)

theorem not_occurs_plain {n : Nat} {s : Str} (none : '$' ∉ s) : ¬ Occurs n s := by
  rintro ⟨d, _, _, inside⟩
  exact none (inside.subset List.mem_cons_self)

theorem keyText_key : KeyPlaceholder keyText symbolRouter.defaultShardKey 1 1 keyHead keyTail where
  dialect := by decide +kernel
  text := by decide +kernel
  predicate := by decide +kernel
  index := by decide +kernel
  whole c head := by
    have first : keyTail.head? = some ' ' := by decide +kernel
    rw [first] at head
    obtain rfl := Option.some.inj head
    rfl
  bound := ⟨Nat.le_refl 1, Nat.le_refl 1⟩
  only := ⟨not_occurs_plain (by decide +kernel), not_occurs_plain (by decide +kernel)⟩

theorem quoting_undone_brien : RoutesSame symbolRouter keyText ["O'Brien".toList] := by
  refine (quoting_undone keyText_key rfl (by decide +kernel)).2.2.mpr ⟨fun _ => ⟨?_, by decide +kernel⟩, .inr ?_⟩
  · rintro ⟨d, _, _, _⟩
    omega
  · decide +kernel

/-- The value has a ` FROM ` with no name behind it, which comes before that of the text. -/
theorem value_hides_table :
    KeyPlaceholder keyText symbolRouter.defaultShardKey 1 1 keyHead keyTail ∧
      eqIgnoreAsciiCase "A FROM ;B".toList nullText = false ∧
      ¬ RoutesSame symbolRouter keyText ["A FROM ;B".toList] := by
  refine ⟨keyText_key, by decide +kernel, fun same => ?_⟩
  exact absurd (same tradesCluster tradesCluster) (by decide +kernel)

end QuestRouter.Protocol
