import QuestRouter.Protocol.ReadOnly
import QuestRouter.Sql.Reading
import QuestRouter.Text.Doubled

/-!
# The values of inlined parameters

A bound value becomes text, and the text becomes a literal. NULL and the text `null` become the same literal, and
the literal of a later parameter may hold the placeholder of an earlier one. But for these and for literals that
touch, the tokens of the inlined statement are those of the statement with the values in place of the placeholders.
-/

namespace QuestRouter.Protocol
open Text Sql

/-! ### Values and their tokens -/

inductive BoundValue where
  | null
  | utf8 (s : Str)
  | largeUtf8 (s : Str)
  deriving DecidableEq, Repr

namespace BoundValue

/-- DataFusion renders every NULL by this word. -/
def scalar : BoundValue → ScalarValue
  | .null => .other "NULL".toList
  | .utf8 s => .utf8 s
  | .largeUtf8 s => .largeUtf8 s

def text : BoundValue → Option Str
  | .null => none
  | .utf8 s => some s
  | .largeUtf8 s => some s

/-- The literal that stands for a value, as SQL reads it. -/
def token (value : BoundValue) : Token :=
  match value.text with
  | none => .word "NULL".toList
  | some s => .string s

end BoundValue

def paramTexts (values : List BoundValue) : List Str := paramsToStrings (.list (values.map BoundValue.scalar))

def bindToken (values : List BoundValue) : Token → Token
  | .param name =>
    match (canonicalNumber name).bind fun k => values[k - 1]? with
    | some value => value.token
    | none => .param name
  | t => t

/-- The inlined text has the tokens of the statement, with each value in place of its placeholder. -/
def KeepsValues (sql : Str) (values : List BoundValue) : Prop :=
  tokens (inlineSqlParams sql (paramTexts values)) = (tokens sql).map (List.map (bindToken values))

/-- What looks like the placeholder of a bound value is the placeholder of one, and not part of a literal, a
comment or a longer word. -/
def PlaceholderAt (n : Nat) (m : Mode) (s : Str) : Prop :=
  StartsAt n s → ∃ k, paramAt m s = some k ∧ k ≤ n

def OutsideLiterals (n : Nat) (sql : Str) : Prop := Everywhere (PlaceholderAt n) .ground sql

/-- In this place the literal of the value is read as a token of its own that decodes to it. -/
def Decodes (k : Nat) (m : Mode) (next : Option Char) (value : BoundValue) : Prop :=
  match value.text with
  | none => next ≠ some '#' ∧ next ≠ some '@'
  | some s => eqIgnoreAsciiCase s nullText = false ∧ ¬ Occurs (k - 1) s ∧ behindLiteral m = false ∧ next ≠ some '\''

def DecodesAt (values : List BoundValue) (m : Mode) (s : Str) : Prop :=
  ∀ k value, paramAt m s = some k → values[k - 1]? = some value →
    Decodes k m (s.drop (placeholder k).length).head? value

theorem length_paramTexts (values : List BoundValue) : (paramTexts values).length = values.length := by
  simp [paramTexts, paramsToStrings]

theorem paramTexts_get {values : List BoundValue} {k : Nat} {value : BoundValue} (bound : values[k - 1]? = some value) :
    rendered (paramTexts values) k = paramLiteral (value.text.getD "NULL".toList) := by
  have text : (paramTexts values)[k - 1]? = some (scalarToString value.scalar) := by
    simp [paramTexts, paramsToStrings, bound]
  rw [rendered, text]
  cases value <;> rfl

theorem placeholderAt_dollar {n : Nat} (m : Mode) (s : Str) (other : s.head? ≠ some '$') : PlaceholderAt n m s := by
  intro starts
  cases s with
  | nil =>
    obtain ⟨d, _, _, found⟩ := starts
    exact (placeholder_ne_nil d (List.prefix_nil.mp found)).elim
  | cons c s => exact (other (congrArg some (startsAt_dollar starts))).elim

theorem decodesAt_dollar {values : List BoundValue} (m : Mode) (s : Str) (other : s.head? ≠ some '$') :
    DecodesAt values m s := by
  intro k value found
  have none := paramAt_other (m := m) (s := s) fun c head same => other (by rw [← same, ← head])
  rw [none] at found
  cases found

/-! ### Replacements, character by character -/

section Replacements
variable (params : List Str) (n : Nat)

theorem inlineUpTo_nil : inlineUpTo params n [] = [] := by
  induction n with
  | zero => rfl
  | succ n ih => exact ih

theorem inlineUpTo_plain {plain : Str} (none : '$' ∉ plain) (s : Str) :
    inlineUpTo params n (plain ++ s) = plain ++ inlineUpTo params n s := by
  induction plain with
  | nil => rfl
  | cons c plain ih =>
    rw [List.mem_cons, not_or] at none
    rw [List.cons_append, inlineUpTo_cons params n (Ne.symm none.1), ih none.2, List.cons_append]

variable {params n}

/-- A dollar sign that begins no placeholder is kept. -/
theorem inlineUpTo_dollar {s : Str} (other : ¬ StartsAt n ('$' :: s)) :
    inlineUpTo params n ('$' :: s) = '$' :: inlineUpTo params n s := by
  obtain ⟨digits, t, rfl, allDigits, apart⟩ := span_split Char.isDigit s
  have plain : '$' ∉ digits := fun member => absurd (allDigits '$' member) (by decide)
  have absent : ¬ Occurs n ('$' :: digits) := fun found => other ((occurs_dollar allDigits apart).mp found)
  have kept := (inlineUpTo_compares params n ('$' :: digits)).same absent
  rw [show '$' :: (digits ++ t) = ('$' :: digits) ++ t from rfl, inlineUpTo_append params n _ apart, ← kept,
    inlineUpTo_plain params n plain]
  rfl

theorem rendered_begins (k : Nat) :
    ∃ c s, rendered params k = c :: s ∧ (c = 'N' ∨ c = '\'') := by
  unfold rendered paramLiteral
  split
  · exact ⟨'N', "ULL".toList, rfl, .inl rfl⟩
  · exact ⟨'\'', _, rfl, .inr rfl⟩

/-- One that begins a placeholder becomes the beginning of a literal. -/
theorem inlineUpTo_starts {s : Str} (starts : StartsAt n s) :
    ∃ c t, inlineUpTo params n s = c :: t ∧ (c = 'N' ∨ c = '\'') := by
  induction n generalizing s with
  | zero =>
    obtain ⟨d, positive, bound, _⟩ := starts
    omega
  | succ n ih =>
    rw [inlineUpTo]
    by_cases here : placeholder (n + 1) <+: s
    · obtain ⟨rest, rfl⟩ := here
      obtain ⟨c, more, literal, begins⟩ := @rendered_begins params (n + 1)
      have other : c ≠ '$' := by rcases begins with rfl | rfl <;> decide
      rw [replace_at_start (placeholder_ne_nil _), literal, List.cons_append, inlineUpTo_cons params n other]
      exact ⟨c, _, rfl, begins⟩
    · obtain ⟨d, positive, bound, rest, rfl⟩ := starts
      have smaller : d ≤ n := by
        rcases Nat.lt_or_ge n d with last | before
        · obtain rfl : d = n + 1 := by omega
          exact (here ⟨rest, rfl⟩).elim
        · exact before
      refine ih ⟨d, positive, smaller, ?_⟩
      have plain : '$' ∉ decimal d := fun member => absurd (isDigit_of_mem_decimal member) (by decide)
      rw [show placeholder d ++ rest = '$' :: (decimal d ++ rest) from rfl] at here ⊢
      rw [replace_cons here, show placeholder (n + 1) = '$' :: decimal (n + 1) from rfl, replace_skip plain]
      exact ⟨_, rfl⟩

end Replacements

/-! ### The literal of one value -/

section Literal
variable {params : List Str} {m : Mode} {k : Nat}

theorem inlineUpTo_null {value : Str} (null : eqIgnoreAsciiCase value nullText = true) (n : Nat) :
    inlineUpTo params n (paramLiteral value) = "NULL".toList := by
  rw [paramLiteral, if_pos null]
  have plain : '$' ∉ "NULL".toList := by decide
  have whole := inlineUpTo_plain params n plain []
  rwa [inlineUpTo_nil, List.append_nil] at whole

theorem inlineUpTo_quoted {value : Str} (other : eqIgnoreAsciiCase value nullText = false) (n : Nat) (s : Str) :
    inlineUpTo params n (paramLiteral value) ++ s =
      '\'' :: (inlineUpTo params n (doubled '\'' value) ++ '\'' :: s) := by
  have close : inlineUpTo params n ['\''] = ['\''] := by
    rw [inlineUpTo_cons params n (by decide), inlineUpTo_nil]
  rw [paramLiteral, other, if_neg Bool.false_ne_true, replace_doubled, List.cons_append,
    inlineUpTo_cons params n (by decide), inlineUpTo_append params n _ (by simp), close]
  simp

theorem not_mem_placeholder (d : Nat) : '\'' ∉ placeholder d := by
  intro member
  rcases List.mem_cons.mp member with same | digit
  · exact absurd same (by decide)
  · exact absurd (isDigit_of_mem_decimal digit) (by decide)

theorem occurs_doubled (n : Nat) (s : Str) : Occurs n (doubled '\'' s) ↔ Occurs n s := by
  refine exists_congr fun d => and_congr_right fun _ => and_congr_right fun _ => ?_
  exact infix_doubled (not_mem_placeholder d) (placeholder_ne_nil d) s

theorem startsAt_doubled (n : Nat) (s : Str) : StartsAt n (doubled '\'' s) ↔ StartsAt n s := by
  refine exists_congr fun d => and_congr_right fun _ => and_congr_right fun _ => ?_
  exact prefix_doubled (not_mem_placeholder d) s

theorem startsAt_of_occurs {n : Nat} {c : Char} {s : Str} (found : Occurs n (c :: s)) :
    StartsAt n (c :: s) ∨ Occurs n s := by
  obtain ⟨d, positive, bound, inside⟩ := found
  rcases List.infix_cons_iff.mp inside with here | later
  · exact .inl ⟨d, positive, bound, here⟩
  · exact .inr ⟨d, positive, bound, later⟩

/-- A literal that holds a placeholder is rewritten from its first one on. -/
theorem inlineUpTo_rewrites (n : Nat) {value : Str} (found : Occurs n value) :
    ∃ before after c rest, value = before ++ '$' :: after ∧ (c = 'N' ∨ c = '\'') ∧
      inlineUpTo params n (doubled '\'' value) = doubled '\'' before ++ c :: rest := by
  induction value with
  | nil =>
    obtain ⟨d, _, _, inside⟩ := found
    exact (placeholder_ne_nil d (List.infix_nil.mp inside)).elim
  | cons c value ih =>
    by_cases starts : StartsAt n (c :: value)
    · obtain rfl := startsAt_dollar starts
      rw [← startsAt_doubled] at starts
      obtain ⟨first, rest, rewritten, begins⟩ := @inlineUpTo_starts params n _ starts
      exact ⟨[], value, first, rest, rfl, begins, rewritten⟩
    · obtain ⟨before, after, d, rest, rfl, begins, rewritten⟩ := ih ((startsAt_of_occurs found).resolve_left starts)
      refine ⟨c :: before, after, d, rest, rfl, begins, ?_⟩
      by_cases quote : c = '\''
      · subst quote
        rw [doubled_quote, doubled_quote, inlineUpTo_cons params n (by decide), inlineUpTo_cons params n (by decide),
          rewritten, List.cons_append, List.cons_append]
      · rw [← startsAt_doubled, doubled_other quote] at starts
        rw [doubled_other quote, doubled_other quote, List.cons_append, ← rewritten]
        by_cases dollar : c = '$'
        · subst dollar
          exact inlineUpTo_dollar starts
        · exact inlineUpTo_cons params n dollar _

/-- It does not decode to its text. -/
theorem lex_rewritten (n : Nat) {value : Str} (found : Occurs n value) (s : Str) (rest : List Token) :
    lex (.string []) (inlineUpTo params n (doubled '\'' value) ++ s) ≠ some (.string value :: rest) := by
  obtain ⟨before, after, c, more, rfl, begins, rewritten⟩ := @inlineUpTo_rewrites params n _ found
  have other : c ≠ '$' := by rcases begins with rfl | rfl <;> decide
  rw [rewritten, List.append_assoc, lex_doubled, List.cons_append]
  exact lex_string_differs other before _ after rest

theorem map_append_eq {read : Option (List Token)} (e xs : List Token) :
    read.map (e ++ ·) = some (e ++ xs) ↔ read = some xs := by
  cases read <;> simp

theorem map_cons_eq {read : Option (List Token)} (t : Token) (xs : List Token) :
    read.map (t :: ·) = some (t :: xs) ↔ read = some xs := map_append_eq [t] xs

theorem isIdentPart_of_stops {c : Char} (stops : isParamPart c = false ∧ c ≠ '$') :
    isIdentPart c = true ↔ c = '#' ∨ c = '@' := by
  simp_all [isParamPart, isIdentPart, isIdentStart]

theorem lex_nullWord (s : Str) : lex (.word ['N']) ("ULL".toList ++ s) = lex (.word "NULL".toList) s := by
  rw [lex_append]
  exact Option.map_id'

theorem lex_null (before : BeforeParam m) {s : Str} (stops : ∀ c ∈ s.head?, isParamPart c = false ∧ c ≠ '$')
    (xs : List Token) :
    lex m ("NULL".toList ++ s) = some ((Sql.step m '$').1 ++ .word "NULL".toList :: xs) ↔
      (s.head? ≠ some '#' ∧ s.head? ≠ some '@') ∧ lex .ground s = some xs := by
  rw [show "NULL".toList ++ s = 'N' :: ("ULL".toList ++ s) from rfl, lex_cons, starts_word before, map_append_eq, lex_nullWord]
  by_cases goesOn : ∃ c ∈ s.head?, c = '#' ∨ c = '@'
  · obtain ⟨c, head, mark⟩ := goesOn
    obtain ⟨t, rfl⟩ : ∃ t, s = c :: t := List.head?_eq_some_iff.mp head
    have reads : Sql.step (.word "NULL".toList) c = ([], .word ("NULL".toList ++ [c])) := by
      simp [Sql.step, (isIdentPart_of_stops (stops c rfl)).mpr mark]
    refine iff_of_false (fun read => ?_) fun both => ?_
    · rw [lex_cons, reads] at read
      obtain ⟨w, rest, same⟩ := lex_word_head (by simp) (show lex (.word ("NULL".toList ++ [c])) t = _ by simpa using read)
      have lengths : "NULL".toList = "NULL".toList ++ [c] ++ w := by injection (List.cons.inj same).1
      simp at lengths
    · rcases mark with rfl | rfl
      · exact both.1.1 rfl
      · exact both.1.2 rfl
  · have ends : lex (.word "NULL".toList) s = (lex .ground s).map (.word "NULL".toList :: ·) := by
      refine lex_end rfl fun c head => ?_
      have notPart : ¬ isIdentPart c = true := fun part =>
        goesOn ⟨c, head, (isIdentPart_of_stops (stops c head)).mp part⟩
      simp [Sql.step, notPart, takesEscapes]
    rw [ends, map_cons_eq]
    refine (and_iff_right ⟨fun head => ?_, fun head => ?_⟩).symm
    · exact goesOn ⟨'#', head, .inl rfl⟩
    · exact goesOn ⟨'@', head, .inr rfl⟩

theorem lex_text (before : BeforeParam m) (k : Nat) (value s : Str)
    (stops : ∀ c ∈ s.head?, isParamPart c = false ∧ c ≠ '$') (xs : List Token) :
    lex m (inlineUpTo params (k - 1) (paramLiteral value) ++ s) = some ((Sql.step m '$').1 ++ .string value :: xs) ↔
      (eqIgnoreAsciiCase value nullText = false ∧ ¬ Occurs (k - 1) value ∧ behindLiteral m = false ∧
        s.head? ≠ some '\'') ∧ lex .ground s = some xs := by
  cases null : eqIgnoreAsciiCase value nullText with
  | true =>
    -- The word is read, or one that goes on with it.
    refine iff_of_false (fun read => ?_) (by simp)
    rw [inlineUpTo_null null, show "NULL".toList ++ s = 'N' :: ("ULL".toList ++ s) from rfl, lex_cons, starts_word before,
      map_append_eq, lex_nullWord] at read
    obtain ⟨w, rest, same⟩ := lex_word_head (by decide) read
    cases same
  | false =>
    rw [inlineUpTo_quoted null]
    cases behind : behindLiteral m with
    | true =>
      obtain ⟨acc, ended, nothing, inside⟩ := literal_goes_on behind
      refine iff_of_false (fun read => ?_) (by simp)
      rw [ended] at read
      exact lex_literal_goes_on inside nothing _ read rfl
    | false =>
      rw [lex_cons, starts_literal before behind, map_append_eq]
      by_cases found : Occurs (k - 1) value
      · exact iff_of_false (lex_rewritten (k - 1) found _ xs) fun both => both.1.2.1 found
      rw [← (inlineUpTo_compares params (k - 1) (doubled '\'' value)).same (by rwa [occurs_doubled]), lex_doubled,
        lex_string_quote, List.nil_append]
      by_cases quote : s.head? = some '\''
      · obtain ⟨t, rfl⟩ := List.head?_eq_some_iff.mp quote
        have goesOn := lex_stringQuote_quote value t
        refine iff_of_false (fun read => ?_) fun both => both.1.2.2.2 quote
        rw [goesOn] at read
        obtain ⟨w, rest, same⟩ := lex_literal_head rfl read
        have contents : value = value ++ ['\''] ++ w := by injection (List.cons.inj same).1
        simp at contents
      · rw [lex_stringQuote value fun c head same => quote (by rw [← same, ← head]), map_cons_eq]
        simp [found, quote]

theorem lex_value (before : BeforeParam m) (k : Nat) (value : BoundValue) {s : Str}
    (stops : ∀ c ∈ s.head?, isParamPart c = false ∧ c ≠ '$') (xs : List Token) :
    lex m (inlineUpTo params (k - 1) (paramLiteral (value.text.getD "NULL".toList)) ++ s) =
        some ((Sql.step m '$').1 ++ value.token :: xs) ↔
      Decodes k m s.head? value ∧ lex .ground s = some xs := by
  cases value with
  | null =>
    rw [show inlineUpTo params (k - 1) (paramLiteral (BoundValue.null.text.getD "NULL".toList)) = "NULL".toList from
      inlineUpTo_null (by decide) (k - 1)]
    exact lex_null before stops xs
  | utf8 text => exact lex_text before k text s stops xs
  | largeUtf8 text => exact lex_text before k text s stops xs

end Literal

/-! ### A whole statement -/

section Statement
variable {values : List BoundValue}

theorem bindToken_other {t : Token} (other : isParam t = false) : bindToken values t = t := by
  cases t <;> first | rfl | cases other

theorem map_bindToken {ts : List Token} (other : ∀ t ∈ ts, isParam t = false) : ts.map (bindToken values) = ts := by
  conv_rhs => rw [← List.map_id ts]
  exact List.map_congr_left fun t member => bindToken_other (other t member)

theorem paramAt_none {m : Mode} {c : Char} (starts : (Sql.step m c).2 ≠ .param []) (s : Str) :
    paramAt m (c :: s) = none := by
  cases found : paramAt m (c :: s) with
  | none => rfl
  | some k =>
    obtain ⟨_, opens, t, split, _⟩ := paramAt_token found
    obtain ⟨rfl, _⟩ : c = '$' ∧ s = decimal k ++ t := List.cons.inj split
    exact (starts opens).elim

theorem inlineUpTo_kept {n : Nat} {m : Mode} {c : Char} {s : Str} (params : List Str)
    (here : PlaceholderAt n m (c :: s)) (none : paramAt m (c :: s) = none) :
    inlineUpTo params n (c :: s) = c :: inlineUpTo params n s := by
  by_cases dollar : c = '$'
  · subst dollar
    refine inlineUpTo_dollar fun starts => ?_
    obtain ⟨k, found, _⟩ := here starts
    rw [none] at found
    cases found
  · exact inlineUpTo_cons params n dollar s

theorem decodesAt_none {m : Mode} {s : Str} (none : paramAt m s = none) : DecodesAt values m s := by
  intro k value found
  rw [none] at found
  cases found

theorem inlineUpTo_head (params : List Str) (n : Nat) {s : Str} (other : s.head? ≠ some '$') :
    (inlineUpTo params n s).head? = s.head? := by
  cases s with
  | nil => rw [inlineUpTo_nil]
  | cons c s =>
    rw [inlineUpTo_cons params n (by simpa using other)]
    rfl

theorem paramAt_starts {m : Mode} (starts : (Sql.step m '$').2 = .param []) {part s : Str}
    (isPart : ∀ c ∈ part, isParamPart c = true) (stops : ∀ c ∈ s.head?, isParamPart c = false ∧ c ≠ '$') :
    paramAt m ('$' :: (part ++ s)) = canonicalNumber part := by
  have ends : s.takeWhile isParamPart = [] ∧ s.dropWhile isParamPart = s := by
    cases s with
    | nil => exact ⟨rfl, rfl⟩
    | cons c s => simp [stops c rfl]
  have name : (part ++ s).takeWhile isParamPart = part := by
    rw [List.takeWhile_append_of_pos isPart, ends.1, List.append_nil]
  have rest : (part ++ s).dropWhile isParamPart = s := by
    rw [List.dropWhile_append_of_pos isPart, ends.2]
  have apart : s.head? ≠ some '$' := fun head => (stops '$' head).2 rfl
  simp only [paramAt, name, rest, starts, apart, ne_eq, not_false_eq_true, and_self, if_true]

theorem paramAt_tag {m : Mode} {part : Str} (isPart : ∀ c ∈ part, isParamPart c = true) (s : Str) :
    paramAt m ('$' :: (part ++ '$' :: s)) = none := by
  have rest : (part ++ '$' :: s).dropWhile isParamPart = '$' :: s := by
    rw [List.dropWhile_append_of_pos isPart, List.dropWhile_cons_of_neg (by decide)]
  simp [paramAt, rest]

theorem canonicalNumber_eq {digits : Str} {k : Nat} (h : canonicalNumber digits = some k) :
    digits = decimal k ∧ 1 ≤ k := by
  unfold canonicalNumber at h
  dsimp only at h
  split at h
  · rename_i canonical
    obtain rfl := Option.some.inj h
    exact canonical
  · cases h

/-- A dollar sign after a name opens a literal that the name closes. -/
theorem lex_tag {m : Mode} (starts : (Sql.step m '$').2 = .param []) {part : Str}
    (isPart : ∀ c ∈ part, isParamPart c = true) (s : Str) :
    lex m ('$' :: (part ++ '$' :: s)) = (lex (.dollar part []) s).map ((Sql.step m '$').1 ++ ·) := by
  have opens : Sql.step (.param part) '$' = ([], .dollar part []) := rfl
  rw [lex_cons, starts, lex_append, run_param [] isPart, emitted_param [] isPart, List.nil_append, lex_quiet (by rw [opens]),
    opens]
  congr 1
  exact Option.map_id'

theorem lex_placeholder {m : Mode} (starts : (Sql.step m '$').2 = .param []) {part s : Str}
    (isPart : ∀ c ∈ part, isParamPart c = true) (stops : ∀ c ∈ s.head?, isParamPart c = false ∧ c ≠ '$') :
    lex m ('$' :: (part ++ s)) = ((lex .ground s).map (.param part :: ·)).map ((Sql.step m '$').1 ++ ·) := by
  rw [lex_cons, starts, lex_params [] isPart stops, List.nil_append]

theorem not_mem_part {part : Str} (isPart : ∀ c ∈ part, isParamPart c = true) : '$' ∉ part :=
  fun member => absurd (isPart '$' member) (by decide)

/-- The inlined text has the tokens of the text with the values in them exactly if all literals decode. -/
def Inlines (values : List BoundValue) (m : Mode) (s : Str) (ts : List Token) : Prop :=
  lex m (inlineUpTo (paramTexts values) values.length s) = some (ts.map (bindToken values)) ↔
    Everywhere (DecodesAt values) m s

/-- A character outside placeholders is kept. -/
theorem inlines_char {m : Mode} {c : Char} {s : Str} {ts : List Token} (regular : Regular m)
    (here : PlaceholderAt values.length m (c :: s)) (other : (Sql.step m c).2 ≠ .param [])
    (onward : Inlines values (Sql.step m c).2 s ts) : Inlines values m (c :: s) ((Sql.step m c).1 ++ ts) := by
  have none := paramAt_none other s
  rw [Inlines, inlineUpTo_kept _ here none, lex_cons, List.map_append, map_bindToken (step_outside regular c).1,
    map_append_eq, everywhere_cons]
  exact onward.trans (and_iff_right (decodesAt_none none)).symm

/-- The tag of a literal is kept. -/
theorem inlines_tag {m : Mode} {part s : Str} {ts : List Token} (regular : Regular m)
    (starts : (Sql.step m '$').2 = .param []) (isPart : ∀ c ∈ part, isParamPart c = true)
    (here : PlaceholderAt values.length m ('$' :: (part ++ '$' :: s)))
    (again : PlaceholderAt values.length (.param part) ('$' :: s)) (onward : Inlines values (.dollar part []) s ts) :
    Inlines values m ('$' :: (part ++ '$' :: s)) ((Sql.step m '$').1 ++ ts) := by
  have opens : (Sql.step (.param part) '$').2 = .dollar part [] := rfl
  have first := paramAt_tag (m := m) isPart s
  have second : paramAt (.param part) ('$' :: s) = none := paramAt_none (fun same => by cases same) s
  have plain := not_mem_part isPart
  rw [Inlines, inlineUpTo_kept _ here first, inlineUpTo_plain _ _ plain, inlineUpTo_kept _ again second,
    lex_tag starts isPart, List.map_append, map_bindToken (step_outside regular '$').1, map_append_eq, everywhere_cons,
    starts, everywhere_skip decodesAt_dollar plain, run_param [] isPart, everywhere_cons, List.nil_append, opens]
  exact onward.trans ⟨fun good => ⟨decodesAt_none first, decodesAt_none second, good⟩, fun all => all.2.2⟩

section Placeholder
variable {m : Mode} {part s : Str} {ts : List Token} (regular : Regular m) (starts : (Sql.step m '$').2 = .param [])
  (isPart : ∀ c ∈ part, isParamPart c = true) (stops : ∀ c ∈ s.head?, isParamPart c = false ∧ c ≠ '$')
  (onward : Inlines values .ground s ts)
include starts isPart stops

theorem everywhere_placeholder :
    Everywhere (DecodesAt values) m ('$' :: (part ++ s)) ↔
      DecodesAt values m ('$' :: (part ++ s)) ∧ Everywhere (DecodesAt values) .ground s := by
  rw [everywhere_cons, starts, everywhere_skip decodesAt_dollar (not_mem_part isPart), run_param [] isPart,
    List.nil_append, everywhere_param decodesAt_dollar part stops]

include onward

/-- A placeholder of no value is kept. -/
theorem inlines_unbound (quiet : ∀ t ∈ (Sql.step m '$').1, isParam t = false)
    (here : PlaceholderAt values.length m ('$' :: (part ++ s)))
    (unbound : ((canonicalNumber part).bind fun k => values[k - 1]?) = none) :
    Inlines values m ('$' :: (part ++ s)) ((Sql.step m '$').1 ++ .param part :: ts) := by
  have number := paramAt_starts starts isPart stops
  have head := inlineUpTo_head (paramTexts values) values.length fun head => (stops '$' head).2 rfl
  have kept : inlineUpTo (paramTexts values) values.length ('$' :: (part ++ s)) =
      '$' :: inlineUpTo (paramTexts values) values.length (part ++ s) := inlineUpTo_dollar fun starts => by
    obtain ⟨k, found, inRange⟩ := here starts
    have positive := (paramAt_token found).1
    rw [← number, found, Option.bind_some, List.getElem?_eq_none_iff] at unbound
    omega
  have same : bindToken values (.param part) = .param part := by simp only [bindToken, unbound]
  rw [Inlines, kept, inlineUpTo_plain _ _ (not_mem_part isPart), lex_placeholder starts isPart (by rwa [head]),
    List.map_append, map_bindToken quiet, List.map_cons, same, map_append_eq, map_cons_eq,
    everywhere_placeholder starts isPart stops]
  refine Iff.trans onward (and_iff_right fun k value found inside => ?_).symm
  rw [← number, found, Option.bind_some, inside] at unbound
  cases unbound

include regular

/-- The placeholder of a value becomes its literal. -/
theorem inlines_bound {k : Nat} {value : BoundValue} (canonical : canonicalNumber part = some k)
    (bound : values[k - 1]? = some value) :
    Inlines values m ('$' :: (part ++ s)) ((Sql.step m '$').1 ++ .param part :: ts) := by
  obtain ⟨digits, positive⟩ := canonicalNumber_eq canonical
  have inRange : k ≤ values.length := by
    have inside := (List.getElem?_eq_some_iff.mp bound).1
    omega
  have found : paramAt m ('$' :: (part ++ s)) = some k := (paramAt_starts starts isPart stops).trans canonical
  have head := inlineUpTo_head (paramTexts values) values.length fun head => (stops '$' head).2 rfl
  have name : '$' :: part = placeholder k := by
    rw [digits]
    rfl
  have apart : ∀ c ∈ s.head?, c.isDigit = false := fun c head => by
    have notPart := (stops c head).1
    rw [isParamPart, Bool.or_eq_false_iff] at notPart
    exact notPart.2
  have text : inlineUpTo (paramTexts values) values.length ('$' :: (part ++ s)) =
      inlineUpTo (paramTexts values) (k - 1) (paramLiteral (value.text.getD "NULL".toList)) ++
        inlineUpTo (paramTexts values) values.length s := by
    rw [← List.cons_append, name, inlineUpTo_append _ _ _ apart, inlineUpTo_placeholder _ positive inRange,
      paramTexts_get bound]
  have same : bindToken values (.param part) = value.token := by
    simp only [bindToken, canonical, Option.bind_some, bound]
  have place : DecodesAt values m ('$' :: (part ++ s)) ↔ Decodes k m s.head? value := by
    have rest : ('$' :: (part ++ s)).drop (placeholder k).length = s := by
      rw [← List.cons_append, name, List.drop_left]
    constructor
    · intro all
      rw [← rest]
      exact all k value found bound
    · intro decodes j other also inside
      obtain rfl := Option.some.inj (found.symm.trans also)
      obtain rfl := Option.some.inj (bound.symm.trans inside)
      rwa [rest]
  rw [Inlines, text, List.map_append, map_bindToken (step_outside regular '$').1, List.map_cons, same,
    lex_value (beforeParam_of_starts regular starts) k value (by rwa [head]), head,
    everywhere_placeholder starts isPart stops, place]
  exact and_congr_right fun _ => onward

end Placeholder

/-- The tokens of an inlined text, read from a mode outside placeholders. -/
theorem lex_inlined {m : Mode} {s : Str} {ts : List Token} (regular : Regular m)
    (outside : Everywhere (PlaceholderAt values.length) m s) (read : lex m s = some ts) : Inlines values m s ts := by
  induction length : s.length using Nat.strong_induction_on generalizing m s ts with
  | _ n ih =>
    cases s with
    | nil =>
      obtain ⟨flush, finished, rfl⟩ := Option.map_eq_some_iff.mp read
      rw [Inlines, inlineUpTo_nil, everywhere_nil, emitted, List.nil_append,
        map_bindToken (finish_outside regular finished)]
      exact iff_of_true read (decodesAt_dollar _ _ (by simp))
    | cons c s =>
      rw [List.length_cons] at length
      obtain ⟨here, later⟩ := everywhere_cons.mp outside
      obtain ⟨quiet, next⟩ := step_outside regular c
      by_cases starts : (Sql.step m c).2 = .param []
      · obtain rfl : c = '$' := by
          rcases next with both | regular
          · exact both.1
          · rw [starts] at regular
            exact regular.elim
        obtain ⟨part, t, rfl, isPart, ends⟩ := span_split isParamPart s
        rw [List.length_append] at length
        rw [starts, everywhere_skip placeholderAt_dollar (not_mem_part isPart), run_param [] isPart,
          List.nil_append] at later
        by_cases tag : t.head? = some '$'
        · obtain ⟨t, rfl⟩ := List.head?_eq_some_iff.mp tag
          rw [List.length_cons] at length
          obtain ⟨again, later⟩ := everywhere_cons.mp later
          rw [lex_tag starts isPart] at read
          obtain ⟨rest, readRest, rfl⟩ := Option.map_eq_some_iff.mp read
          exact inlines_tag regular starts isPart here again (ih t.length (by omega) (by trivial) later readRest rfl)
        · have stops : ∀ c ∈ t.head?, isParamPart c = false ∧ c ≠ '$' := fun c head =>
            ⟨ends c head, fun same => tag (by rw [← same, ← head])⟩
          rw [everywhere_param placeholderAt_dollar part stops] at later
          rw [lex_placeholder starts isPart stops] at read
          obtain ⟨_, readParam, rfl⟩ := Option.map_eq_some_iff.mp read
          obtain ⟨rest, readRest, rfl⟩ := Option.map_eq_some_iff.mp readParam
          have onward := ih t.length (by omega) (by trivial) later readRest rfl
          cases unbound : (canonicalNumber part).bind fun k => values[k - 1]? with
          | none => exact inlines_unbound starts isPart stops onward quiet here unbound
          | some value =>
            obtain ⟨k, canonical, bound⟩ := Option.bind_eq_some_iff.mp unbound
            exact inlines_bound regular starts isPart stops onward canonical bound
      · obtain ⟨rest, readRest, rfl⟩ := Option.map_eq_some_iff.mp (lex_cons m c s ▸ read)
        exact inlines_char regular here starts
          (ih s.length (by omega) (next.resolve_left fun both => starts both.2) later readRest rfl)

theorem keepsValues_of_tokens {sql : Str} {ts : List Token} (read : tokens sql = some ts) :
    KeepsValues sql values ↔ tokens (inlineSqlParams sql (paramTexts values)) = some (ts.map (bindToken values)) := by
  rw [KeepsValues, read]
  rfl

theorem canonicalNumber_decimal {k : Nat} (positive : 1 ≤ k) : canonicalNumber (decimal k) = some k := by
  simp only [canonicalNumber, decimal, Nat.ofDigitChars_ten_toDigits]
  exact if_pos ⟨trivial, positive⟩

theorem bindToken_decimal {k : Nat} {value : BoundValue} (positive : 1 ≤ k) (bound : values[k - 1]? = some value) :
    bindToken values (.param (decimal k)) = value.token := by
  simp only [bindToken, canonicalNumber_decimal positive, Option.bind_some, bound]

theorem token_injective {v w : BoundValue} (same : v.token = w.token) : v.text = w.text := by
  unfold BoundValue.token at same
  split at same
  · rename_i first
    split at same
    · rename_i second
      rw [first, second]
    · cases same
  · rename_i first
    split at same
    · cases same
    · rename_i second
      rw [first, second]
      exact congrArg some (Token.string.inj same)

/-- The inlined statement has the values as its tokens exactly if every literal decodes where it is put. Two lists
of values for which it does become the same text only if they bind the same values to the placeholders. -/
theorem inlining_decodes_iff {sql : Str} {ts : List Token} (read : tokens sql = some ts) (values : List BoundValue)
    (outside : OutsideLiterals values.length sql) :
    (KeepsValues sql values ↔ Everywhere (DecodesAt values) .ground sql) ∧
    ∀ others, KeepsValues sql values → KeepsValues sql others →
      inlineSqlParams sql (paramTexts values) = inlineSqlParams sql (paramTexts others) →
      ∀ k v w, 1 ≤ k → .param (decimal k) ∈ ts → values[k - 1]? = some v → others[k - 1]? = some w → v.text = w.text := by
  constructor
  · rw [keepsValues_of_tokens read, inlineSqlParams_eq, length_paramTexts]
    exact lex_inlined (by trivial) outside read
  · intro others keeps keepsOthers same k v w positive member bound boundOthers
    rw [keepsValues_of_tokens read] at keeps keepsOthers
    rw [same, keepsOthers, Option.some_inj, List.map_inj_left] at keeps
    have here := keeps _ member
    rw [bindToken_decimal positive bound, bindToken_decimal positive boundOthers] at here
    exact (token_injective here).symm

end Statement

def byName : Str := "SELECT * FROM t WHERE name = $1".toList

theorem byName_outside : OutsideLiterals 1 byName := by
  have split : byName = "SELECT * FROM t WHERE name = ".toList ++ ['$', '1'] := by decide
  rw [OutsideLiterals, split, everywhere_skip placeholderAt_dollar (by decide), everywhere_cons, everywhere_cons,
    everywhere_nil]
  exact ⟨fun _ => ⟨1, by decide +kernel, Nat.le_refl 1⟩, placeholderAt_dollar _ _ (by decide),
    placeholderAt_dollar _ _ (by decide)⟩

theorem inlining_decodes_quote : Everywhere (DecodesAt [.utf8 "O'Brien".toList]) .ground byName := by
  have read : tokens byName = some ((tokens byName).getD []) := by decide +kernel
  have keeps : KeepsValues byName [.utf8 "O'Brien".toList] := by
    unfold KeepsValues
    decide +kernel
  exact (inlining_decodes_iff read [.utf8 "O'Brien".toList] byName_outside).1.mp keeps

/-- The text `Null` is inlined as NULL is. -/
theorem null_text_collides :
    OutsideLiterals 1 byName ∧
      inlineSqlParams byName (paramTexts [.utf8 "Null".toList]) = inlineSqlParams byName (paramTexts [.null]) ∧
      ¬ KeepsValues byName [.utf8 "Null".toList] := by
  refine ⟨byName_outside, by decide +kernel, ?_⟩
  unfold KeepsValues
  decide +kernel
end QuestRouter.Protocol
