import QuestRouter.Sql.Reading

/-!
# Where the words are

The tokens of a text, as far as it is read, and the places of its words. A word is a token where it begins in a
mode that reads no literal, no quoted name and no comment, and where the word does not go on.
-/

namespace QuestRouter.Sql
open Text

/-- The tokens from mode `m`. What the text leaves open gives none. -/
def reading (m : Mode) (s : Str) : List Token := emitted m s ++ (finish (m.run s)).getD []

def readTokens (sql : Str) : List Token := reading .ground sql

/-- Of a text that leaves nothing open these are all its tokens. -/
theorem readTokens_of_tokens {sql : Str} {ts : List Token} (read : tokens sql = some ts) : readTokens sql = ts := by
  obtain ⟨last, finished, rfl⟩ := Option.map_eq_some_iff.mp read
  rw [readTokens, reading, finished, Option.getD_some]

theorem reading_cons (m : Mode) (c : Char) (s : Str) :
    reading m (c :: s) = (step m c).1 ++ reading (step m c).2 s := by
  rw [reading, reading, emitted, run_cons, List.append_assoc]

theorem reading_append (m : Mode) (s t : Str) : reading m (s ++ t) = emitted m s ++ reading (m.run s) t := by
  rw [reading, reading, emitted_append, run_append, List.append_assoc]

/-- The word `w` begins after what mode `m` has read. -/
def Begins (m : Mode) (w : Str) : Prop :=
  ∃ c part, w = c :: part ∧ step m c = ((finish m).getD [], .word [c]) ∧ ∀ d ∈ part, isIdentPart d = true

/-- The word `w` is read to its end where `s` follows. An `E` or `X` before a quote is none. -/
def Ends (w s : Str) : Prop :=
  ∀ c ∈ s.head?, isIdentPart c = false ∧ ¬ (c = '\'' ∧ takesEscapes w = true)

/-! ### Reading a word -/

theorem step_word_end {w : Str} {c : Char} (other : isIdentPart c = false)
    (noPrefix : ¬ (c = '\'' ∧ takesEscapes w = true)) : step (.word w) c = after (.word w) c := by
  rw [step, other, if_neg Bool.false_ne_true, if_neg noPrefix]

theorem reading_end {w s : Str} (ends : Ends w s) : reading (.word w) s = .word w :: reading .ground s := by
  cases s with
  | nil => rfl
  | cons c s =>
    obtain ⟨other, noPrefix⟩ := ends c rfl
    rw [reading_cons, reading_cons, step_word_end other noPrefix]
    rfl

theorem reading_part (acc : Str) {part s : Str} (parts : ∀ d ∈ part, isIdentPart d = true)
    (ends : Ends (acc ++ part) s) :
    reading (.word acc) (part ++ s) = .word (acc ++ part) :: reading .ground s := by
  induction part generalizing acc with
  | nil =>
    rw [List.append_nil] at ends ⊢
    exact reading_end ends
  | cons d part ih =>
    rw [List.forall_mem_cons] at parts
    have reads : step (.word acc) d = ([], .word (acc ++ [d])) := by simp [step, parts.1]
    have shift : acc ++ d :: part = (acc ++ [d]) ++ part := by simp
    rw [shift] at ends ⊢
    rw [List.cons_append, reading_cons, reads, ih (acc ++ [d]) parts.2 ends, List.nil_append]

theorem reading_word {m : Mode} {before w rest : Str} (begins : Begins (m.run before) w) (ends : Ends w rest) :
    reading m (before ++ (w ++ rest)) = reading m before ++ .word w :: reading .ground rest := by
  obtain ⟨c, part, rfl, starts, parts⟩ := begins
  calc reading m (before ++ (c :: part ++ rest))
      = emitted m before ++ reading (m.run before) (c :: (part ++ rest)) := reading_append m before _
    _ = emitted m before ++ ((finish (m.run before)).getD [] ++ reading (.word [c]) (part ++ rest)) := by
        rw [reading_cons, starts]
    _ = reading m before ++ .word (c :: part) :: reading .ground rest := by
        rw [reading_part [c] parts ends, ← List.append_assoc]
        rfl

/-! ### Finding a word -/

def isWordToken : Token → Bool
  | .word _ => true
  | _ => false

def inWord : Mode → Bool
  | .word _ => true
  | _ => false

/-- No word begins and none goes on. -/
def Plain (read : List Token × Mode) : Prop := (∀ t ∈ read.1, isWordToken t = false) ∧ inWord read.2 = false

theorem plain_quiet {m : Mode} (other : inWord m = false) : Plain ([], m) := ⟨List.forall_mem_nil _, other⟩

theorem start_cases (c : Char) : isIdentStart c = true ∧ start c = ([], .word [c]) ∨ Plain (start c) := by
  unfold start
  split
  · exact .inr (plain_quiet rfl)
  split
  · rename_i begins
    exact .inl ⟨begins, rfl⟩
  right
  repeat' split
  all_goals first | exact plain_quiet rfl | exact ⟨by simp [isWordToken], rfl⟩

/-- What a character does to a word. -/
inductive WordStep (m : Mode) (c : Char) : Prop
  | goesOn (acc : Str) (inside : m = .word acc) (part : isIdentPart c = true)
  | ends (acc : Str) (inside : m = .word acc) (other : isIdentPart c = false)
      (noPrefix : ¬ (c = '\'' ∧ takesEscapes acc = true))
  | begins (starts : step m c = ((finish m).getD [], .word [c])) (none : ∀ t ∈ (step m c).1, isWordToken t = false)
  | plain (plain : Plain (step m c))

theorem wordStep_quiet {m m' : Mode} {c : Char} (reads : step m c = ([], m')) (other : inWord m' = false) :
    WordStep m c := .plain (reads ▸ plain_quiet other)

theorem wordStep_after {m : Mode} {t : Token} {c : Char} (last : finish m = some [t]) (other : isWordToken t = false)
    (reads : step m c = after t c) : WordStep m c := by
  have none : ∀ l : List Token, (∀ t' ∈ l, isWordToken t' = false) → ∀ t' ∈ t :: l, isWordToken t' = false :=
    fun l rest => List.forall_mem_cons.mpr ⟨other, rest⟩
  rcases start_cases c with ⟨_, starts⟩ | ⟨nothing, apart⟩
  · have emits : step m c = ([t], .word [c]) := by rw [reads, after, starts]
    apply WordStep.begins
    · rw [emits, last, Option.getD_some]
    · rw [emits]
      exact none [] (List.forall_mem_nil _)
  · apply WordStep.plain
    rw [reads]
    exact ⟨none _ nothing, apart⟩

/-- A token that either goes on with `m'` or has ended. -/
theorem wordStep_ite {p : Prop} [Decidable p] {m m' : Mode} {t : Token} {c : Char}
    (reads : step m c = if p then ([], m') else after t c) (last : finish m = some [t])
    (other : isWordToken t = false) (apart : inWord m' = false) : WordStep m c := by
  by_cases goesOn : p
  · exact wordStep_quiet (reads.trans (if_pos goesOn)) apart
  · exact wordStep_after last other (reads.trans (if_neg goesOn))

theorem wordStep (m : Mode) (c : Char) : WordStep m c := by
  cases m with
  | ground =>
    rcases start_cases c with ⟨_, starts⟩ | plain
    · exact .begins starts (by rw [step, starts]; exact List.forall_mem_nil _)
    · exact .plain plain
  | word acc =>
    by_cases part : isIdentPart c = true
    · exact .goesOn acc rfl part
    by_cases isPrefix : c = '\'' ∧ takesEscapes acc = true
    · exact wordStep_quiet (by rw [step, if_neg part, if_pos isPrefix]) rfl
    · exact .ends acc rfl (Bool.eq_false_iff.mpr part) isPrefix
  | number acc | stringQuote acc | escapedQuote acc | quotedQuote q acc | dash | slash =>
    exact wordStep_ite rfl rfl rfl rfl
  | param acc =>
    by_cases part : isParamPart c = true
    · exact wordStep_quiet (by rw [step, if_pos part]) rfl
    · exact wordStep_ite (by rw [step, if_neg part]) rfl rfl rfl
  | escapedSlash acc => exact wordStep_quiet rfl rfl
  | dollar tag acc =>
    apply WordStep.plain
    rw [step]
    split
    · exact ⟨by simp [isWordToken], rfl⟩
    · exact plain_quiet rfl
  | string acc | escaped acc | quoted q acc | lineComment | block depth | blockSlash depth =>
    apply WordStep.plain
    rw [step]
    repeat' split
    all_goals exact plain_quiet rfl
  | blockStar depth =>
    apply WordStep.plain
    unfold step
    dsimp only
    repeat' split
    all_goals exact plain_quiet rfl

/-- The word `w` is in `s`, read from mode `m`, between the tokens `xs` and `ys`. -/
def WordAt (m : Mode) (w s : Str) (xs ys : List Token) : Prop :=
  ∃ before rest, s = before ++ (w ++ rest) ∧ Begins (m.run before) w ∧ Ends w rest ∧
    reading m before = xs ∧ reading .ground rest = ys

/-- The word `w`, of which `acc` has been read, is read from the front of `s`. -/
def WordOn (acc w s : Str) (ys : List Token) : Prop :=
  ∃ part rest, s = part ++ rest ∧ acc ++ part = w ∧ (∀ d ∈ part, isIdentPart d = true) ∧ Ends w rest ∧
    reading .ground rest = ys

theorem wordAt_cons {m : Mode} {c : Char} {w s : Str} {xs ys : List Token}
    (found : WordAt (step m c).2 w s xs ys) : WordAt m w (c :: s) ((step m c).1 ++ xs) ys := by
  obtain ⟨before, rest, rfl, begins, ends, front, back⟩ := found
  exact ⟨c :: before, rest, rfl, begins, ends, by rw [reading_cons, front], back⟩

theorem wordAt_here {m : Mode} {c : Char} {w s : Str} {ys : List Token}
    (starts : step m c = ((finish m).getD [], .word [c])) (on : WordOn [c] w s ys) :
    WordAt m w (c :: s) ((step m c).1) ys := by
  obtain ⟨part, rest, rfl, rfl, parts, ends, back⟩ := on
  exact ⟨[], rest, rfl, ⟨c, part, rfl, starts, parts⟩, ends, by rw [starts]; rfl, back⟩

theorem wordOn_cons {acc w s : Str} {c : Char} {ys : List Token} (part : isIdentPart c = true)
    (on : WordOn (acc ++ [c]) w s ys) : WordOn acc w (c :: s) ys := by
  obtain ⟨more, rest, rfl, rfl, parts, ends, back⟩ := on
  exact ⟨c :: more, rest, rfl, by simp, List.forall_mem_cons.mpr ⟨part, parts⟩, ends, back⟩

/-- What is a word comes behind what are none. -/
theorem split_behind {others later xs ys : List Token} {w : Str} (none : ∀ t ∈ others, isWordToken t = false)
    (split : others ++ later = xs ++ .word w :: ys) : ∃ more, xs = others ++ more ∧ later = more ++ .word w :: ys := by
  rcases List.append_eq_append_iff.mp split with ⟨more, rfl, rest⟩ | ⟨more, rfl, rest⟩
  · exact ⟨more, rfl, rest⟩
  · cases more with
    | nil => exact ⟨[], by rw [List.append_nil, List.append_nil], rest.symm⟩
    | cons t more =>
      obtain ⟨rfl, _⟩ := List.cons.inj rest
      cases none (.word w) (by simp)

theorem finish_words (m : Mode) :
    (∃ acc, m = .word acc) ∨ ∀ t ∈ (finish m).getD [], isWordToken t = false := by
  cases m with
  | word acc => exact .inl ⟨acc, rfl⟩
  | _ => exact .inr (by simp [finish, isWordToken])

theorem finish_split {m : Mode} {w : Str} {xs ys : List Token} (split : (finish m).getD [] = xs ++ .word w :: ys) :
    m = .word w ∧ xs = [] ∧ ys = [] := by
  rcases finish_words m with ⟨acc, rfl⟩ | none
  · have only : [Token.word acc] = xs ++ .word w :: ys := split
    obtain ⟨rfl, rfl, rfl⟩ : xs = [] ∧ w = acc ∧ ys = [] := by simpa [List.singleton_eq_append_iff] using only
    exact ⟨rfl, rfl, rfl⟩
  · have member : Token.word w ∈ (finish m).getD [] := by
      rw [split]
      exact List.mem_append_right xs List.mem_cons_self
    cases none _ member

theorem start_other {c : Char} (other : isIdentPart c = false) : Plain (start c) := by
  rcases start_cases c with ⟨begins, _⟩ | plain
  · simp [isIdentPart, begins] at other
  · exact plain

/-- Each word among the tokens is in the text, and the text before it gives the tokens before it. -/
theorem reading_split {m : Mode} {s w : Str} {xs ys : List Token} (split : reading m s = xs ++ .word w :: ys) :
    (∃ acc, m = .word acc ∧ xs = [] ∧ WordOn acc w s ys) ∨ WordAt m w s xs ys := by
  induction s generalizing m xs with
  | nil =>
    obtain ⟨rfl, rfl, rfl⟩ := finish_split split
    exact .inl ⟨w, rfl, rfl, [], [], rfl, List.append_nil w, List.forall_mem_nil _, nofun, rfl⟩
  | cons c s ih =>
    -- Behind tokens that are no words, the word is found in the rest of the text.
    have later : ∀ {read : List Token × Mode} {xs : List Token}, Plain read →
        read.1 ++ reading read.2 s = xs ++ .word w :: ys → ∃ more, xs = read.1 ++ more ∧ WordAt read.2 w s more ys := by
      intro read xs plain split
      obtain ⟨more, rfl, rest⟩ := split_behind plain.1 split
      rcases ih rest with ⟨acc, inside, _⟩ | found
      · have outside := plain.2
        rw [inside] at outside
        cases outside
      · exact ⟨more, rfl, found⟩
    rw [reading_cons] at split
    cases wordStep m c with
    | goesOn acc inside part =>
      subst inside
      have reads : step (.word acc) c = ([], .word (acc ++ [c])) := by simp [step, part]
      rw [reads, List.nil_append] at split
      rcases ih split with ⟨_, ⟨⟩, none, on⟩ | found
      · exact .inl ⟨acc, rfl, none, wordOn_cons part on⟩
      · have found := wordAt_cons (m := .word acc) (c := c) (by rwa [reads])
        rw [reads] at found
        exact .inr found
    | ends acc inside other noPrefix =>
      subst inside
      have reads := step_word_end other noPrefix
      cases xs with
      | nil =>
        have split : reading (.word acc) (c :: s) = .word w :: ys := by rwa [reading_cons]
        rw [reading_end fun d head => by cases head; exact ⟨other, noPrefix⟩] at split
        obtain ⟨same, rest⟩ := List.cons.inj split
        exact .inl ⟨acc, rfl, rfl, [], c :: s, rfl, by rw [List.append_nil, Token.word.inj same],
          List.forall_mem_nil _, fun d head => by cases head; exact ⟨other, Token.word.inj same ▸ noPrefix⟩, rest⟩
      | cons t xs =>
        rw [reads, after, List.cons_append, List.cons_append] at split
        obtain ⟨rfl, rest⟩ := List.cons.inj split
        obtain ⟨more, rfl, found⟩ := later (start_other other) rest
        have found := wordAt_cons (m := .word acc) (c := c) (by rw [reads]; exact found)
        rw [reads] at found
        exact .inr found
    | begins starts none =>
      obtain ⟨more, rfl, rest⟩ := split_behind none split
      rw [starts] at rest
      rcases ih rest with ⟨_, ⟨⟩, rfl, on⟩ | found
      · rw [List.append_nil]
        exact .inr (wordAt_here starts on)
      · exact .inr (wordAt_cons (by rwa [starts]))
    | plain plain =>
      obtain ⟨more, rfl, found⟩ := later plain split
      exact .inr (wordAt_cons found)

theorem readTokens_word_iff {sql w : Str} {xs ys : List Token} :
    readTokens sql = xs ++ .word w :: ys ↔ WordAt .ground w sql xs ys := by
  constructor
  · intro split
    rcases reading_split split with ⟨acc, ⟨⟩, _⟩ | found
    exact found
  · rintro ⟨before, rest, rfl, begins, ends, rfl, rfl⟩
    exact reading_word begins ends

/-- In `before ++ first ++ gap ++ second ++ rest`, two words with nothing but blanks and comments between them. -/
structure Adjacent (before first gap second rest : Str) : Prop where
  begins : Begins (Mode.ground.run before) first
  ends : Ends first (gap ++ (second ++ rest))
  apart : readTokens gap = []
  next : Begins (Mode.ground.run gap) second
  last : Ends second rest

theorem readTokens_pair_iff {sql first second : Str} :
    [.word first, .word second] <:+: readTokens sql ↔
      ∃ before gap rest, sql = before ++ (first ++ (gap ++ (second ++ rest))) ∧
        Adjacent before first gap second rest := by
  constructor
  · rintro ⟨xs, ys, split⟩
    obtain ⟨before, behind, rfl, begins, ends, rfl, back⟩ :=
      readTokens_word_iff.mp (split.symm.trans (List.append_assoc xs _ ys))
    obtain ⟨gap, rest, rfl, next, last, apart, rfl⟩ :=
      readTokens_word_iff.mp (back.trans (List.nil_append _).symm)
    exact ⟨before, gap, rest, rfl, begins, ends, apart, next, last⟩
  · rintro ⟨before, gap, rest, rfl, begins, ends, apart, next, last⟩
    have behind : readTokens (gap ++ (second ++ rest)) = .word second :: readTokens rest := by
      have inside := reading_word (m := .ground) next last
      rw [readTokens] at apart
      rwa [apart, List.nil_append] at inside
    refine ⟨readTokens before, readTokens rest, ?_⟩
    calc readTokens before ++ [.word first, .word second] ++ readTokens rest
        = readTokens before ++ .word first :: .word second :: readTokens rest := List.append_assoc _ _ _
      _ = readTokens before ++ .word first :: readTokens (gap ++ (second ++ rest)) := by rw [behind]
      _ = readTokens (before ++ (first ++ (gap ++ (second ++ rest)))) := (reading_word begins ends).symm

end QuestRouter.Sql
