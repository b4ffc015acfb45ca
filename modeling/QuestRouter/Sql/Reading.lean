import QuestRouter.Sql.Lexer
import QuestRouter.Text.Doubled

/-!
# Tokens read from the middle

What a mode has read of a word or a literal begins the content of its token. Outside a placeholder, no mode turns
into one but by a dollar sign.
-/

namespace QuestRouter.Sql
open Text

/-! ### Words and literals -/

theorem lex_word_head {acc s : Str} {ts : List Token} (long : 2 ≤ acc.length) (read : lex (.word acc) s = some ts) :
    ∃ w rest, ts = .word (acc ++ w) :: rest := by
  induction s generalizing acc with
  | nil =>
    obtain rfl : [.word acc] = ts := Option.some.inj read
    exact ⟨[], [], by rw [List.append_nil]⟩
  | cons c s ih =>
    rw [lex_cons] at read
    by_cases part : isIdentPart c = true
    · have reads : step (.word acc) c = ([], .word (acc ++ [c])) := by simp [step, part]
      rw [reads] at read
      have longer : 2 ≤ (acc ++ [c]).length := by
        rw [List.length_append]
        omega
      obtain ⟨w, rest, rfl⟩ := ih longer (by simpa using read)
      exact ⟨c :: w, rest, by simp⟩
    · have noPrefix : ¬ (c = '\'' ∧ takesEscapes acc = true) := by
        rintro ⟨_, escapes⟩
        unfold takesEscapes at escapes
        split at escapes
        · simp at long
        · cases escapes
      rw [step, if_neg part, if_neg noPrefix, after] at read
      obtain ⟨rest, _, rfl⟩ := Option.map_eq_some_iff.mp read
      exact ⟨[], (start c).1 ++ rest, by simp⟩

/-- What has been read of a literal. -/
def literalContent : Mode → Option Str
  | .string acc => some acc
  | .stringQuote acc => some acc
  | .escaped acc => some acc
  | .escapedSlash acc => some acc
  | .escapedQuote acc => some acc
  | _ => none

theorem step_literal {m : Mode} {acc : Str} (inside : literalContent m = some acc) (c : Char) :
    (∃ w, (step m c).1 = [] ∧ literalContent (step m c).2 = some (acc ++ w)) ∨
      ∃ more, (step m c).1 = .string acc :: more := by
  cases m <;> cases inside
  case string =>
    rw [step]
    split
    · exact .inl ⟨[], rfl, by rw [List.append_nil]; rfl⟩
    · exact .inl ⟨[c], rfl, rfl⟩
  case stringQuote =>
    rw [step]
    split
    · exact .inl ⟨[c], rfl, rfl⟩
    · exact .inr ⟨_, rfl⟩
  case escaped =>
    rw [step]
    split
    · exact .inl ⟨[], rfl, by rw [List.append_nil]; rfl⟩
    split
    · exact .inl ⟨[], rfl, by rw [List.append_nil]; rfl⟩
    · exact .inl ⟨[c], rfl, rfl⟩
  case escapedSlash => exact .inl ⟨[c], rfl, rfl⟩
  case escapedQuote =>
    rw [step]
    split
    · exact .inl ⟨[c], rfl, rfl⟩
    · exact .inr ⟨_, rfl⟩

theorem lex_literal_head {m : Mode} {acc s : Str} {ts : List Token} (inside : literalContent m = some acc)
    (read : lex m s = some ts) : ∃ w rest, ts = .string (acc ++ w) :: rest := by
  induction s generalizing m acc ts with
  | nil =>
    refine ⟨[], [], ?_⟩
    rw [List.append_nil]
    cases m <;> cases inside <;> cases read <;> rfl
  | cons c s ih =>
    rw [lex_cons] at read
    obtain ⟨later, readLater, rfl⟩ := Option.map_eq_some_iff.mp read
    rcases step_literal inside c with ⟨w, nothing, still⟩ | ⟨more, ends⟩
    · obtain ⟨w', rest, rfl⟩ := ih still readLater
      exact ⟨w ++ w', rest, by rw [nothing, List.nil_append, List.append_assoc]⟩
    · exact ⟨[], more ++ later, by rw [ends, List.append_nil]; rfl⟩

theorem lex_quiet {m : Mode} {c : Char} (nothing : (step m c).1 = []) (s : Str) :
    lex m (c :: s) = lex (step m c).2 s := by
  rw [lex_cons, nothing]
  simp

theorem lex_string_quote (acc s : Str) : lex (.string acc) ('\'' :: s) = lex (.stringQuote acc) s := by
  rw [lex_quiet] <;> simp [step]

theorem lex_stringQuote_quote (acc s : Str) :
    lex (.stringQuote acc) ('\'' :: s) = lex (.string (acc ++ ['\''])) s := by
  rw [lex_quiet] <;> simp [step]

theorem lex_string_char {c : Char} (other : c ≠ '\'') (acc s : Str) :
    lex (.string acc) (c :: s) = lex (.string (acc ++ [c])) s := by
  rw [lex_quiet] <;> simp [step, other]

/-- The text of a literal is read as it is, whatever follows. -/
theorem lex_doubled (acc value s : Str) :
    lex (.string acc) (doubled '\'' value ++ s) = lex (.string (acc ++ value)) s := by
  induction value generalizing acc with
  | nil => rw [doubled_nil, List.nil_append, List.append_nil]
  | cons c value ih =>
    have shift : acc ++ c :: value = (acc ++ [c]) ++ value := by simp
    rw [shift, ← ih]
    by_cases quote : c = '\''
    · subst quote
      rw [doubled_quote, List.cons_append, List.cons_append, lex_string_quote, lex_stringQuote_quote]
    · rw [doubled_other quote, List.cons_append, lex_string_char quote]

/-- A quote after a literal goes on with it. -/
theorem lex_literal_goes_on {m : Mode} {acc s : Str} {c : Char} {ts : List Token}
    (inside : literalContent (step m c).2 = some (acc ++ [c])) (nothing : (step m c).1 = [])
    (rest : List Token) (read : lex m (c :: s) = some ts) : ts ≠ .string acc :: rest := by
  rw [lex_cons, nothing] at read
  obtain ⟨w, more, rfl⟩ := lex_literal_head inside (by simpa using read)
  intro same
  have contents : acc ++ [c] ++ w = acc := by injection (List.cons.inj same).1
  have lengths := congrArg List.length contents
  simp only [List.length_append, List.length_singleton] at lengths
  omega

/-- The first character that differs decides that the literals do. -/
theorem lex_string_differs {c d : Char} (other : c ≠ d) (acc s more : Str) (rest : List Token) :
    lex (.string acc) (c :: s) ≠ some (.string (acc ++ d :: more) :: rest) := by
  have longer : ∀ {c : Char} {m : Mode} {s : Str}, c ≠ d → literalContent m = some (acc ++ [c]) →
      lex m s ≠ some (.string (acc ++ d :: more) :: rest) := by
    intro c m s other inside read
    obtain ⟨w, later, same⟩ := lex_literal_head inside read
    have contents : acc ++ d :: more = acc ++ [c] ++ w := by injection (List.cons.inj same).1
    rw [List.append_assoc, List.append_cancel_left_eq] at contents
    exact other (List.cons.inj contents).1.symm
  by_cases quote : c = '\''
  · subst quote
    rw [lex_string_quote]
    have ended : ∀ later : List Token, Token.string acc :: later ≠ .string (acc ++ d :: more) :: rest := by
      intro later same
      have contents : acc = acc ++ d :: more := by injection (List.cons.inj same).1
      simp at contents
    cases s with
    | nil => exact fun read => ended [] (Option.some.inj read)
    | cons e s =>
      by_cases again : e = '\''
      · subst again
        rw [lex_stringQuote_quote]
        exact longer other rfl
      · intro read
        rw [lex_after (t := .string acc) (by simp [step, again])] at read
        obtain ⟨later, _, same⟩ := Option.map_eq_some_iff.mp read
        exact ended later same
  · rw [lex_string_char quote]
    exact longer other rfl

/-! ### Modes outside placeholders -/

/-- A mode that reading reaches, and that is in no placeholder. -/
def Regular : Mode → Prop
  | .param _ => False
  | .quoted q _ => q = '"' ∨ q = '\x60'
  | .quotedQuote q _ => q = '"' ∨ q = '\x60'
  | _ => True

def isParam : Token → Bool
  | .param _ => true
  | _ => false

/-- Nothing of a placeholder is read, but for a dollar sign that begins one. -/
def OutsideParam (read : List Token × Mode) (c : Char) : Prop :=
  (∀ t ∈ read.1, isParam t = false) ∧ (c = '$' ∧ read.2 = .param [] ∨ Regular read.2)

theorem outside_quiet {m : Mode} (regular : Regular m) (c : Char) : OutsideParam ([], m) c :=
  ⟨List.forall_mem_nil _, .inr regular⟩

theorem start_outside (c : Char) : OutsideParam (start c) c := by
  unfold start
  split
  · exact outside_quiet (by trivial) c
  split
  · exact outside_quiet (by trivial) c
  split
  · exact outside_quiet (by trivial) c
  split
  · exact outside_quiet (by trivial) c
  split
  · rename_i quote
    exact outside_quiet (by exact quote) c
  split
  · rename_i dollar
    exact ⟨List.forall_mem_nil _, .inl ⟨dollar, rfl⟩⟩
  split
  · exact outside_quiet (by trivial) c
  split
  · exact outside_quiet (by trivial) c
  · exact ⟨by simp [isParam], .inr trivial⟩

theorem after_outside {t : Token} (other : isParam t = false) (c : Char) : OutsideParam (after t c) c :=
  ⟨List.forall_mem_cons.mpr ⟨other, (start_outside c).1⟩, (start_outside c).2⟩

theorem step_outside {m : Mode} (regular : Regular m) (c : Char) : OutsideParam (step m c) c := by
  cases m with
  | ground => exact start_outside c
  | param acc => exact regular.elim
  | escapedSlash acc => exact outside_quiet (by trivial) c
  | word acc =>
    rw [step]
    split
    · exact outside_quiet (by trivial) c
    split
    · exact outside_quiet (by trivial) c
    · exact after_outside rfl c
  | escaped acc =>
    rw [step]
    split
    · exact outside_quiet (by trivial) c
    split <;> exact outside_quiet (by trivial) c
  | number acc | stringQuote acc | escapedQuote acc | dash | slash =>
    rw [step]
    split
    · exact outside_quiet (by trivial) c
    · exact after_outside rfl c
  | quotedQuote q acc =>
    rw [step]
    split
    · exact outside_quiet (by exact regular) c
    · exact after_outside rfl c
  | quoted q acc =>
    rw [step]
    split <;> exact outside_quiet (by exact regular) c
  | string acc | lineComment =>
    rw [step]
    split <;> exact outside_quiet (by trivial) c
  | dollar tag acc =>
    rw [step]
    split
    · exact ⟨by simp [isParam], .inr trivial⟩
    · exact outside_quiet (by trivial) c
  | block depth | blockSlash depth =>
    rw [step]
    split
    · exact outside_quiet (by trivial) c
    split <;> exact outside_quiet (by trivial) c
  | blockStar depth =>
    unfold step
    dsimp only
    split
    · cases depth <;> exact outside_quiet (by trivial) c
    split <;> exact outside_quiet (by trivial) c

/-- The modes that a dollar sign leaves for a placeholder. -/
inductive BeforeParam : Mode → Prop
  | ground : BeforeParam .ground
  | number (acc : Str) : BeforeParam (.number acc)
  | stringQuote (acc : Str) : BeforeParam (.stringQuote acc)
  | escapedQuote (acc : Str) : BeforeParam (.escapedQuote acc)
  | quotedQuote {q : Char} (acc : Str) (quote : q = '"' ∨ q = '\x60') : BeforeParam (.quotedQuote q acc)
  | dash : BeforeParam .dash
  | slash : BeforeParam .slash

theorem beforeParam_of_starts {m : Mode} (regular : Regular m) (starts : (step m '$').2 = .param []) :
    BeforeParam m := by
  cases m with
  | ground => exact .ground
  | number acc => exact .number acc
  | stringQuote acc => exact .stringQuote acc
  | escapedQuote acc => exact .escapedQuote acc
  | quotedQuote q acc => exact .quotedQuote acc regular
  | dash => exact .dash
  | slash => exact .slash
  | param acc => exact regular.elim
  | quoted q acc =>
    rw [step] at starts
    split at starts <;> cases starts
  | dollar tag acc =>
    rw [step] at starts
    split at starts <;> cases starts
  | _ => cases starts

/-- Where a placeholder starts, a word starts too. -/
theorem starts_word {m : Mode} (before : BeforeParam m) : step m 'N' = ((step m '$').1, .word ['N']) := by
  cases before with
  | quotedQuote acc quote => rcases quote with rfl | rfl <;> rfl
  | _ => rfl

def behindLiteral : Mode → Bool
  | .stringQuote _ => true
  | .escapedQuote _ => true
  | _ => false

/-- Where a placeholder starts and no literal has just ended, a literal starts too. -/
theorem starts_literal {m : Mode} (before : BeforeParam m) (apart : behindLiteral m = false) :
    step m '\'' = ((step m '$').1, .string []) := by
  cases before with
  | quotedQuote acc quote => rcases quote with rfl | rfl <;> rfl
  | stringQuote acc => cases apart
  | escapedQuote acc => cases apart
  | _ => rfl

/-- Behind the quote of a literal, a quote goes on with it. -/
theorem literal_goes_on {m : Mode} (behind : behindLiteral m = true) :
    ∃ acc, (step m '$').1 = [.string acc] ∧ (step m '\'').1 = [] ∧
      literalContent (step m '\'').2 = some (acc ++ ['\'']) := by
  cases m <;> cases behind
  case stringQuote acc => exact ⟨acc, rfl, rfl, rfl⟩
  case escapedQuote acc => exact ⟨acc, rfl, rfl, rfl⟩

theorem finish_outside {m : Mode} (regular : Regular m) {ts : List Token} (finished : finish m = some ts) :
    ∀ t ∈ ts, isParam t = false := by
  cases m <;> cases finished <;> first | exact regular.elim | simp [isParam]

/-! ### Placeholders -/

theorem run_param (acc : Str) {part : Str} (isPart : ∀ c ∈ part, isParamPart c = true) :
    (Mode.param acc).run part = .param (acc ++ part) := by
  induction part generalizing acc with
  | nil => simp
  | cons c part ih =>
    rw [List.forall_mem_cons] at isPart
    have reads : step (.param acc) c = ([], .param (acc ++ [c])) := by simp [step, isPart.1]
    rw [run_cons, reads, ih (acc ++ [c]) isPart.2, List.append_assoc, List.singleton_append]

theorem emitted_param (acc : Str) {part : Str} (isPart : ∀ c ∈ part, isParamPart c = true) :
    emitted (.param acc) part = [] := by
  induction part generalizing acc with
  | nil => rfl
  | cons c part ih =>
    rw [List.forall_mem_cons] at isPart
    have reads : step (.param acc) c = ([], .param (acc ++ [c])) := by simp [step, isPart.1]
    rw [emitted, reads, ih (acc ++ [c]) isPart.2, List.append_nil]

theorem lex_params (acc : Str) {part s : Str} (isPart : ∀ c ∈ part, isParamPart c = true)
    (stops : ∀ c ∈ s.head?, isParamPart c = false ∧ c ≠ '$') :
    lex (.param acc) (part ++ s) = (lex .ground s).map (.param (acc ++ part) :: ·) := by
  rw [lex_append, run_param acc isPart, emitted_param acc isPart,
    lex_end (t := .param (acc ++ part)) rfl fun c head => by simp [step, stops c head], Option.map_map]
  rfl

/-! ### Positions -/

/-- This holds of every position of a text that is read from mode `m`. -/
def Everywhere (p : Mode → Str → Prop) (m : Mode) (s : Str) : Prop :=
  ∀ before rest, s = before ++ rest → p (m.run before) rest

variable {p : Mode → Str → Prop} {m : Mode}

theorem everywhere_nil : Everywhere p m [] ↔ p m [] := by
  constructor
  · exact fun all => all [] [] rfl
  · intro here before rest split
    obtain ⟨rfl, rfl⟩ := List.append_eq_nil_iff.mp split.symm
    exact here

theorem everywhere_cons {c : Char} {s : Str} :
    Everywhere p m (c :: s) ↔ p m (c :: s) ∧ Everywhere p (step m c).2 s := by
  constructor
  · intro all
    refine ⟨all [] (c :: s) rfl, fun before rest split => ?_⟩
    exact all (c :: before) rest (by rw [split, List.cons_append])
  · rintro ⟨here, later⟩ before rest split
    cases before with
    | nil =>
      obtain rfl : c :: s = rest := split
      exact here
    | cons first before =>
      obtain ⟨rfl, rfl⟩ := List.cons.inj split
      exact later before rest rfl

/-- Where only dollar signs matter, other characters are passed over. -/
theorem everywhere_skip (dollars : ∀ m s, s.head? ≠ some '$' → p m s) {plain s : Str} (none : '$' ∉ plain) :
    Everywhere p m (plain ++ s) ↔ Everywhere p (m.run plain) s := by
  induction plain generalizing m with
  | nil => rfl
  | cons c plain ih =>
    rw [List.mem_cons, not_or] at none
    rw [List.cons_append, everywhere_cons, ih none.2, run_cons]
    refine and_iff_right (dollars m _ ?_)
    rw [List.head?_cons, Ne, Option.some_inj]
    exact Ne.symm none.1

theorem everywhere_param (dollars : ∀ m s, s.head? ≠ some '$' → p m s) (acc : Str) {s : Str}
    (stops : ∀ c ∈ s.head?, isParamPart c = false ∧ c ≠ '$') :
    Everywhere p (.param acc) s ↔ Everywhere p .ground s := by
  cases s with
  | nil =>
    rw [everywhere_nil, everywhere_nil]
    exact iff_of_true (dollars _ _ (by simp)) (dollars _ _ (by simp))
  | cons c s =>
    obtain ⟨notPart, notDollar⟩ := stops c rfl
    have same : (step (.param acc) c).2 = (step .ground c).2 := by simp [step, after, notPart, notDollar]
    have passed : ∀ m, p m (c :: s) := fun m => dollars m _ (by simp [notDollar])
    rw [everywhere_cons, everywhere_cons, same]
    exact and_congr_left fun _ => iff_of_true (passed _) (passed _)

end QuestRouter.Sql
