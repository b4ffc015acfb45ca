import QuestRouter.Text.Str

/-!
# Tokens

SQL text is read one character at a time. A mode says what has been read of the current token;
each character completes some tokens and leads to the next mode. White space and comments separate
tokens and are none.
-/

namespace QuestRouter.Sql
open Text

inductive Token where
  | word (text : Str)
  | number (text : Str)
  /-- A string literal, by its content. -/
  | string (text : Str)
  /-- A quoted identifier. -/
  | quoted (text : Str)
  /-- A placeholder, by what follows its dollar sign. -/
  | param (text : Str)
  | symbol (c : Char)
  deriving DecidableEq, Repr

inductive Mode where
  | ground
  | word (acc : Str)
  | number (acc : Str)
  | string (acc : Str)
  /-- After a quote that ends the literal, unless another quote follows. -/
  | stringQuote (acc : Str)
  /-- Inside a literal with backslash escapes. -/
  | escaped (acc : Str)
  | escapedSlash (acc : Str)
  | escapedQuote (acc : Str)
  | quoted (q : Char) (acc : Str)
  | quotedQuote (q : Char) (acc : Str)
  | param (acc : Str)
  /-- Inside a literal that ends with `$tag$`. -/
  | dollar (tag acc : Str)
  | dash
  | lineComment
  | slash
  | block (depth : Nat)
  | blockStar (depth : Nat)
  | blockSlash (depth : Nat)
  deriving DecidableEq, Repr

def isLetter (c : Char) : Bool := c.isAlpha || c == '_' || (128 ≤ c.toNat && !isWhitespace c)

def isIdentStart (c : Char) : Bool := isLetter c || c == '#' || c == '@'

def isIdentPart (c : Char) : Bool := isIdentStart c || c.isDigit || c == '$'

def isParamPart (c : Char) : Bool := isLetter c || c.isDigit

/-- `E` or `X`, as in `E'it\'s'`: a literal behind it has backslash escapes. -/
def takesEscapes : Str → Bool
  | [c] => c == 'e' || c == 'E' || c == 'x' || c == 'X'
  | _ => false

/-- A character that is not part of the token before it. -/
def start (c : Char) : List Token × Mode :=
  if isWhitespace c then ([], .ground)
  else if isIdentStart c then ([], .word [c])
  else if c.isDigit then ([], .number [c])
  else if c = '\'' then ([], .string [])
  else if c = '"' ∨ c = '\x60' then ([], .quoted c [])
  else if c = '$' then ([], .param [])
  else if c = '-' then ([], .dash)
  else if c = '/' then ([], .slash)
  else ([.symbol c], .ground)

/-- A character after the end of a token. -/
def after (t : Token) (c : Char) : List Token × Mode := (t :: (start c).1, (start c).2)

def step : Mode → Char → List Token × Mode
  | .ground, c => start c
  | .word acc, c =>
    if isIdentPart c then ([], .word (acc ++ [c]))
    else if c = '\'' ∧ takesEscapes acc = true then ([], .escaped [])
    else after (.word acc) c
  | .number acc, c => if c.isDigit ∨ c = '.' then ([], .number (acc ++ [c])) else after (.number acc) c
  | .string acc, c => if c = '\'' then ([], .stringQuote acc) else ([], .string (acc ++ [c]))
  | .stringQuote acc, c => if c = '\'' then ([], .string (acc ++ [c])) else after (.string acc) c
  | .escaped acc, c =>
    if c = '\'' then ([], .escapedQuote acc)
    else if c = '\\' then ([], .escapedSlash acc)
    else ([], .escaped (acc ++ [c]))
  | .escapedSlash acc, c => ([], .escaped (acc ++ [c]))
  | .escapedQuote acc, c => if c = '\'' then ([], .escaped (acc ++ [c])) else after (.string acc) c
  | .quoted q acc, c => if c = q then ([], .quotedQuote q acc) else ([], .quoted q (acc ++ [c]))
  | .quotedQuote q acc, c => if c = q then ([], .quoted q (acc ++ [c])) else after (.quoted acc) c
  | .param acc, c =>
    if isParamPart c then ([], .param (acc ++ [c]))
    else if c = '$' then ([], .dollar acc [])
    else after (.param acc) c
  | .dollar tag acc, c =>
    let content := acc ++ [c]
    let close := '$' :: tag ++ ['$']
    if close.isSuffixOf content then ([.string (content.take (content.length - close.length))], .ground)
    else ([], .dollar tag content)
  | .dash, c => if c = '-' then ([], .lineComment) else after (.symbol '-') c
  | .lineComment, c => if c = '\n' then ([], .ground) else ([], .lineComment)
  | .slash, c => if c = '*' then ([], .block 0) else after (.symbol '/') c
  | .block depth, c =>
    if c = '*' then ([], .blockStar depth)
    else if c = '/' then ([], .blockSlash depth)
    else ([], .block depth)
  | .blockStar depth, c =>
    if c = '/' then
      match depth with
      | 0 => ([], .ground)
      | outer + 1 => ([], .block outer)
    else if c = '*' then ([], .blockStar depth)
    else ([], .block depth)
  | .blockSlash depth, c =>
    if c = '*' then ([], .block (depth + 1))
    else if c = '/' then ([], .blockSlash depth)
    else ([], .block depth)

def finish : Mode → Option (List Token)
  | .ground => some []
  | .word acc => some [.word acc]
  | .number acc => some [.number acc]
  | .stringQuote acc => some [.string acc]
  | .escapedQuote acc => some [.string acc]
  | .quotedQuote _ acc => some [.quoted acc]
  | .param acc => some [.param acc]
  | .dash => some [.symbol '-']
  | .slash => some [.symbol '/']
  | .lineComment => some []
  | _ => none

def Mode.run (m : Mode) (s : Str) : Mode := s.foldl (fun m c => (step m c).2) m

def emitted : Mode → Str → List Token
  | _, [] => []
  | m, c :: s => (step m c).1 ++ emitted (step m c).2 s

def lex (m : Mode) (s : Str) : Option (List Token) := (finish (m.run s)).map (emitted m s ++ ·)

def tokens (sql : Str) : Option (List Token) := lex .ground sql

@[simp] theorem run_nil (m : Mode) : m.run [] = m := rfl

@[simp] theorem run_cons (m : Mode) (c : Char) (s : Str) : m.run (c :: s) = (step m c).2.run s := rfl

theorem run_append (m : Mode) (s t : Str) : m.run (s ++ t) = (m.run s).run t := by
  simp [Mode.run]

theorem emitted_append (m : Mode) (s t : Str) :
    emitted m (s ++ t) = emitted m s ++ emitted (m.run s) t := by
  induction s generalizing m with
  | nil => rfl
  | cons c s ih => simp [emitted, ih]

theorem lex_append (m : Mode) (s t : Str) : lex m (s ++ t) = (lex (m.run s) t).map (emitted m s ++ ·) := by
  rw [lex, lex, run_append, emitted_append]
  cases finish ((m.run s).run t) <;> simp

/-! ### Reading one token -/

theorem lex_cons (m : Mode) (c : Char) (s : Str) :
    lex m (c :: s) = (lex (step m c).2 s).map ((step m c).1 ++ ·) := by
  rw [← List.singleton_append, lex_append, run_cons, run_nil, emitted, emitted, List.append_nil]

theorem lex_after {m : Mode} {t : Token} {c : Char} (ends : step m c = after t c) (s : Str) :
    lex m (c :: s) = (lex .ground (c :: s)).map (t :: ·) := by
  rw [lex_cons, lex_cons, ends, step, after, Option.map_map]
  rfl

theorem lex_end {m : Mode} {t : Token} {s : Str} (last : finish m = some [t])
    (ends : ∀ c ∈ s.head?, step m c = after t c) : lex m s = (lex .ground s).map (t :: ·) := by
  cases s with
  | nil =>
    rw [lex, lex, run_nil, run_nil, last]
    rfl
  | cons c s => exact lex_after (ends c rfl) s

theorem lex_word (acc : Str) {part s : Str} (isPart : ∀ c ∈ part, isIdentPart c = true)
    (stops : ∀ c ∈ s.head?, isIdentPart c = false ∧ c ≠ '\'') :
    lex (.word acc) (part ++ s) = (lex .ground s).map (.word (acc ++ part) :: ·) := by
  induction part generalizing acc with
  | nil =>
    rw [List.nil_append, List.append_nil]
    exact lex_end rfl fun c head => by simp [step, stops c head]
  | cons d part ih =>
    rw [List.forall_mem_cons] at isPart
    have reads : step (.word acc) d = ([], .word (acc ++ [d])) := by simp [step, isPart.1]
    rw [List.cons_append, lex_cons, reads, ih (acc ++ [d]) isPart.2, List.append_assoc, Option.map_map]
    rfl

theorem lex_stringQuote (acc : Str) {s : Str} (stops : ∀ c ∈ s.head?, c ≠ '\'') :
    lex (.stringQuote acc) s = (lex .ground s).map (.string acc :: ·) :=
  lex_end rfl fun c head => by simp [step, stops c head]

theorem lex_blank {c : Char} (blank : isWhitespace c = true) (s : Str) : lex .ground (c :: s) = lex .ground s := by
  have reads : step .ground c = ([], .ground) := by simp [step, start, blank]
  rw [lex_cons, reads]
  simp

theorem lex_trimStart (s : Str) : lex .ground s = lex .ground (trimStart s) := by
  induction s with
  | nil => rfl
  | cons c s ih =>
    by_cases blank : isWhitespace c = true
    · rw [lex_blank blank, ih, trimStart, trimStart, List.dropWhile_cons_of_pos blank]
    · rw [trimStart, List.dropWhile_cons_of_neg blank]

theorem lex_dollar {label acc s : Str} {ts : List Token} (h : lex (.dollar label acc) s = some ts) :
    ∃ content rest, ts = .string content :: rest := by
  induction s generalizing acc with
  | nil => cases h
  | cons c s ih =>
    rw [lex_cons] at h
    by_cases closes : ('$' :: label ++ ['$']).isSuffixOf (acc ++ [c]) = true
    · simp only [step, closes, if_true] at h
      obtain ⟨rest, _, rfl⟩ := Option.map_eq_some_iff.mp h
      exact ⟨_, rest, rfl⟩
    · simp only [step, closes, Bool.false_eq_true, if_false, List.nil_append, Option.map_id'] at h
      exact ih h

theorem lex_param {acc s p : Str} {ts : List Token} (h : lex (.param acc) s = some (.param p :: ts)) :
    p = acc ++ s.takeWhile isParamPart := by
  induction s generalizing acc with
  | nil =>
    cases h
    simp
  | cons c s ih =>
    by_cases part : isParamPart c = true
    · have reads : step (.param acc) c = ([], .param (acc ++ [c])) := by simp [step, part]
      rw [lex_cons, reads] at h
      rw [ih (by simpa using h), List.takeWhile_cons_of_pos part, List.append_assoc]
      rfl
    · rw [List.takeWhile_cons_of_neg part, List.append_nil]
      by_cases quote : c = '$'
      · have reads : step (.param acc) c = ([], .dollar acc []) := by
          subst quote
          rfl
        rw [lex_cons, reads] at h
        have quoted : lex (.dollar acc []) s = some (.param p :: ts) := by simpa using h
        obtain ⟨_, _, same⟩ := lex_dollar quoted
        cases same
      · rw [lex_after (t := .param acc) (by simp [step, part, quote])] at h
        obtain ⟨_, _, same⟩ := Option.map_eq_some_iff.mp h
        cases same
        rfl

end QuestRouter.Sql
