import QuestRouter.Protocol.PgBackend
import QuestRouter.Sql.Lexer

/-!
# Inlining of parameters

What inlining should be is a substitution for the placeholder tokens of the text. What it is are
replacements of `$n`, ..., `$1` anywhere. A replacement that the substitution does not make adds
quotes, or takes a dollar sign away and adds no quote; nothing undoes either. So the two agree
exactly if every occurrence of a `$k` in the text is a placeholder token, and no literal put in holds
a placeholder of a smaller number.
-/

namespace QuestRouter.Protocol
open Text Sql

/-! ### The substitution -/

/-- The positive number that digits stand for, if they are its decimal form. -/
def canonicalNumber (digits : Str) : Option Nat :=
  let k := Nat.ofDigitChars 10 digits 0
  if digits = decimal k ∧ 1 ≤ k then some k else none

/-- The number of the placeholder token `$k` that starts here. -/
def paramAt (m : Mode) : Str → Option Nat
  | '$' :: s =>
    if (Sql.step m '$').2 = .param [] ∧ (s.dropWhile isParamPart).head? ≠ some '$' then
      canonicalNumber (s.takeWhile isParamPart)
    else none
  | _ => none

def rendered (params : List Str) (k : Nat) : Str := paramLiteral (params[k - 1]?.getD [])

/-- Every placeholder token of a parameter is replaced by its literal and every other character is
kept. The first `skip` characters belong to a token that has been replaced. -/
def substituteFrom (params : List Str) : Nat → Mode → Str → Str
  | _, _, [] => []
  | skip + 1, m, c :: s => substituteFrom params skip (Sql.step m c).2 s
  | 0, m, c :: s =>
    match (paramAt m (c :: s)).filter (· ≤ params.length) with
    | some k => rendered params k ++ substituteFrom params (decimal k).length (Sql.step m c).2 s
    | none => c :: substituteFrom params 0 (Sql.step m c).2 s

def substitute (params : List Str) (sql : Str) : Str := substituteFrom params 0 .ground sql

/-! ### The replacements -/

def inlineUpTo (params : List Str) : Nat → Str → Str
  | 0, s => s
  | n + 1, s => inlineUpTo params n (replace s (placeholder (n + 1)) (rendered params (n + 1)))

theorem inlineUpTo_append_params (params more : List Str) {n : Nat} (h : n ≤ params.length) (s : Str) :
    inlineUpTo (params ++ more) n s = inlineUpTo params n s := by
  induction n generalizing s with
  | zero => rfl
  | succ n ih =>
    have same : rendered (params ++ more) (n + 1) = rendered params (n + 1) := by
      rw [rendered, rendered, Nat.add_sub_cancel, List.getElem?_append_left (by omega)]
    rw [inlineUpTo, inlineUpTo, same]
    exact ih (by omega) _

theorem inlineSqlParams_eq (sql : Str) (params : List Str) :
    inlineSqlParams sql params = inlineUpTo params params.length sql := by
  induction params using List.reverseRecOn generalizing sql with
  | nil => rfl
  | append_singleton params last ih =>
    have literal : rendered (params ++ [last]) (params.length + 1) = paramLiteral last := by
      simp [rendered]
    rw [List.length_append, List.length_singleton, inlineUpTo, literal,
      inlineUpTo_append_params params [last] (Nat.le_refl _), ← ih]
    simp [inlineSqlParams, List.zipIdx_append, List.zipIdx_cons]

theorem placeholder_ne_nil (k : Nat) : placeholder k ≠ [] := List.cons_ne_nil _ _

theorem placeholder_apart (k : Nat) {t : Str} (h : ∀ c ∈ t.head?, c.isDigit = false) :
    ∀ c ∈ t.head?, c ∉ (placeholder k).tail := by
  intro c head member
  have digit := isDigit_of_mem_decimal (show c ∈ decimal k from member)
  rw [h c head] at digit
  cases digit

theorem rendered_head (params : List Str) (k : Nat) :
    ∃ c s, rendered params k = c :: s ∧ c.isDigit = false := by
  unfold rendered paramLiteral
  split
  · exact ⟨'N', "ULL".toList, rfl, by decide⟩
  · exact ⟨'\'', _, rfl, by decide⟩

theorem replace_head (params : List Str) (k : Nat) {t : Str} (h : ∀ c ∈ t.head?, c.isDigit = false) :
    ∀ c ∈ (replace t (placeholder k) (rendered params k)).head?, c.isDigit = false := by
  by_cases found : placeholder k <+: t
  · obtain ⟨rest, rfl⟩ := found
    obtain ⟨first, more, literal, notDigit⟩ := rendered_head params k
    rw [replace_at_start (placeholder_ne_nil k), literal]
    simpa using notDigit
  · cases t with
    | nil => simp
    | cons c t =>
      rw [replace_cons found]
      simpa using h

theorem inlineUpTo_append (params : List Str) (n : Nat) (s : Str) {t : Str}
    (h : ∀ c ∈ t.head?, c.isDigit = false) :
    inlineUpTo params n (s ++ t) = inlineUpTo params n s ++ inlineUpTo params n t := by
  induction n generalizing s t with
  | zero => rfl
  | succ n ih =>
    rw [inlineUpTo, replace_append (placeholder_ne_nil _) (placeholder_apart _ h)]
    exact ih _ (replace_head params _ h)

theorem inlineUpTo_cons (params : List Str) (n : Nat) {c : Char} (other : c ≠ '$') (s : Str) :
    inlineUpTo params n (c :: s) = c :: inlineUpTo params n s := by
  induction n generalizing s with
  | zero => rfl
  | succ n ih =>
    have absent : ¬ placeholder (n + 1) <+: c :: s := by
      intro found
      exact other (List.cons_prefix_cons.mp found).1.symm
    rw [inlineUpTo, replace_cons absent]
    exact ih _

/-! ### What a replacement adds -/

/-- `t` has more quotes than `s`, or as many and fewer dollar signs. -/
def Richer (s t : Str) : Prop :=
  s.count '\'' < t.count '\'' ∨ s.count '\'' = t.count '\'' ∧ t.count '$' < s.count '$'

theorem Richer.ne {s t : Str} (h : Richer s t) : s ≠ t := by
  rintro rfl
  unfold Richer at h
  omega

theorem Richer.trans {s t u : Str} (first : Richer s t) (second : Richer t u) : Richer s u := by
  unfold Richer at *
  omega

/-- The texts are the same if `p`, and the second is richer if not. -/
structure Compares (p : Prop) (s t : Str) : Prop where
  same : p → s = t
  richer : ¬ p → Richer s t

theorem Compares.eq_iff {p : Prop} {s t : Str} (h : Compares p s t) : s = t ↔ p := by
  constructor
  · intro eq
    by_contra not
    exact (h.richer not).ne eq
  · exact h.same

theorem Compares.append {p q : Prop} {s t u v : Str} (left : Compares p s t) (right : Compares q u v) :
    Compares (p ∧ q) (s ++ u) (t ++ v) := by
  refine ⟨fun both => by rw [left.same both.1, right.same both.2], fun not => ?_⟩
  by_cases hp : p
  · have hq : ¬ q := fun hq => not ⟨hp, hq⟩
    have more := right.richer hq
    rw [left.same hp]
    simp only [Richer, List.count_append] at *
    omega
  · have more := left.richer hp
    by_cases hq : q
    · rw [right.same hq]
      simp only [Richer, List.count_append] at *
      omega
    · have also := right.richer hq
      simp only [Richer, List.count_append] at *
      omega

theorem Compares.congr {p q : Prop} {s t : Str} (h : Compares p s t) (iff : p ↔ q) : Compares q s t :=
  ⟨fun hq => h.same (iff.mpr hq), fun hq => h.richer fun hp => hq (iff.mp hp)⟩

theorem compares_refl {p : Prop} (h : p) (s : Str) : Compares p s s := ⟨fun _ => rfl, fun not => (not h).elim⟩

theorem count_decimal {c : Char} (h : c.isDigit = false) (k : Nat) : (decimal k).count c = 0 := by
  rw [List.count_eq_zero]
  intro member
  rw [isDigit_of_mem_decimal member] at h
  cases h

theorem richer_rendered (params : List Str) (k : Nat) : Richer (placeholder k) (rendered params k) := by
  have quotes : (placeholder k).count '\'' = 0 := by simp [placeholder, count_decimal]
  have dollars : (placeholder k).count '$' = 1 := by simp [placeholder, count_decimal]
  unfold Richer rendered paramLiteral
  rw [quotes, dollars]
  split
  · exact .inr (by decide)
  · left
    simp

theorem replace_compares (params : List Str) (k : Nat) (s : Str) :
    Compares (¬ placeholder k <:+: s) s (replace s (placeholder k) (rendered params k)) := by
  induction s using replaceInduction (placeholder_ne_nil k) with
  | nil => exact compares_refl (by simp [placeholder]) []
  | cons c s here ih =>
    rw [replace_cons here]
    have split : Compares (True ∧ ¬ placeholder k <:+: s) ([c] ++ s)
        ([c] ++ replace s (placeholder k) (rendered params k)) := (compares_refl trivial [c]).append ih
    apply split.congr
    rw [List.infix_cons_iff]
    simp [here]
  | found s ih =>
    rw [replace_at_start (placeholder_ne_nil k)]
    have first : Compares False (placeholder k) (rendered params k) :=
      ⟨False.elim, fun _ => richer_rendered params k⟩
    refine (first.append ih).congr ?_
    have inside : placeholder k <:+: placeholder k ++ s := (List.prefix_append _ _).isInfix
    simp [inside]

def Occurs (n : Nat) (s : Str) : Prop := ∃ d, 1 ≤ d ∧ d ≤ n ∧ placeholder d <:+: s

theorem occurs_succ {n : Nat} {s : Str} : Occurs (n + 1) s ↔ placeholder (n + 1) <:+: s ∨ Occurs n s := by
  constructor
  · rintro ⟨d, positive, bound, found⟩
    rcases Nat.lt_or_ge n d with last | before
    · obtain rfl : d = n + 1 := by omega
      exact .inl found
    · exact .inr ⟨d, positive, before, found⟩
  · rintro (found | ⟨d, positive, bound, found⟩)
    · exact ⟨n + 1, by omega, Nat.le_refl _, found⟩
    · exact ⟨d, positive, by omega, found⟩

/-- The replacements change a text exactly if one of the placeholders occurs in it. -/
theorem inlineUpTo_compares (params : List Str) (n : Nat) (s : Str) :
    Compares (¬ Occurs n s) s (inlineUpTo params n s) := by
  induction n generalizing s with
  | zero =>
    refine compares_refl ?_ s
    rintro ⟨d, positive, bound, _⟩
    omega
  | succ n ih =>
    rw [inlineUpTo]
    have last := replace_compares params (n + 1) s
    by_cases found : placeholder (n + 1) <:+: s
    · have more := last.richer (not_not.mpr found)
      refine ⟨fun absent => (absent (occurs_succ.mpr (.inl found))).elim, fun _ => ?_⟩
      have rest := ih (replace s (placeholder (n + 1)) (rendered params (n + 1)))
      by_cases again : Occurs n (replace s (placeholder (n + 1)) (rendered params (n + 1)))
      · exact more.trans (rest.richer (not_not.mpr again))
      · rwa [← rest.same again]
    · rw [← last.same found]
      refine (ih s).congr ?_
      rw [occurs_succ]
      simp [found]

/-! ### Where the two agree -/

def StartsAt (n : Nat) (s : Str) : Prop := ∃ d, 1 ≤ d ∧ d ≤ n ∧ placeholder d <+: s

/-- If a placeholder of a parameter starts here, it is a token, and its literal holds no placeholder
of a smaller number. -/
def GoodAt (params : List Str) (m : Mode) (s : Str) : Prop :=
  StartsAt params.length s →
    ∃ k, paramAt m s = some k ∧ k ≤ params.length ∧ ¬ Occurs (k - 1) (rendered params k)

/-- This holds at every position of a text that is read from mode `m`. -/
def Clean (params : List Str) (m : Mode) (s : Str) : Prop :=
  ∀ before rest, s = before ++ rest → GoodAt params (m.run before) rest

theorem goodAt_of_not_startsAt {params : List Str} {m : Mode} {s : Str}
    (h : ¬ StartsAt params.length s) : GoodAt params m s := fun starts => (h starts).elim

theorem startsAt_dollar {n : Nat} {c : Char} {s : Str} (h : StartsAt n (c :: s)) : c = '$' := by
  obtain ⟨d, _, _, found⟩ := h
  exact (List.cons_prefix_cons.mp found).1.symm

theorem clean_nil (params : List Str) (m : Mode) : Clean params m [] := by
  intro before rest split
  obtain ⟨rfl, rfl⟩ := List.append_eq_nil_iff.mp split.symm
  apply goodAt_of_not_startsAt
  rintro ⟨d, _, _, found⟩
  exact placeholder_ne_nil d (List.prefix_nil.mp found)

theorem clean_cons {params : List Str} {m : Mode} {c : Char} {s : Str} :
    Clean params m (c :: s) ↔ GoodAt params m (c :: s) ∧ Clean params (Sql.step m c).2 s := by
  constructor
  · intro clean
    refine ⟨clean [] (c :: s) rfl, fun before rest split => ?_⟩
    exact clean (c :: before) rest (by rw [split, List.cons_append])
  · rintro ⟨here, later⟩ before rest split
    cases before with
    | nil =>
      obtain rfl : c :: s = rest := split
      exact here
    | cons first before =>
      obtain ⟨rfl, rfl⟩ := List.cons.inj split
      exact later before rest rfl

theorem clean_digits {params : List Str} {digits t : Str} (h : ∀ c ∈ digits, c.isDigit = true) (m : Mode) :
    Clean params m (digits ++ t) ↔ Clean params (m.run digits) t := by
  induction digits generalizing m with
  | nil => rfl
  | cons c digits ih =>
    have plain : ¬ StartsAt params.length (c :: (digits ++ t)) := by
      intro starts
      have digit := h c List.mem_cons_self
      rw [startsAt_dollar starts] at digit
      cases digit
    rw [List.cons_append, clean_cons, ih fun d member => h d (List.mem_cons_of_mem _ member)]
    simp [goodAt_of_not_startsAt plain]

theorem substituteFrom_skip (params : List Str) (m : Mode) (s t : Str) :
    substituteFrom params s.length m (s ++ t) = substituteFrom params 0 (m.run s) t := by
  induction s generalizing m with
  | nil => rfl
  | cons c s ih => exact ih (Sql.step m c).2

theorem substituteFrom_cons {params : List Str} {m : Mode} {c : Char} (other : c ≠ '$') (s : Str) :
    substituteFrom params 0 m (c :: s) = c :: substituteFrom params 0 (Sql.step m c).2 s := by
  have none : paramAt m (c :: s) = none := by
    unfold paramAt
    split
    · rename_i same
      exact (other (List.cons.inj same).1).elim
    · rfl
  rw [substituteFrom, none]
  rfl

theorem substituteFrom_digits {params : List Str} {digits : Str} (h : ∀ c ∈ digits, c.isDigit = true)
    (m : Mode) (t : Str) :
    substituteFrom params 0 m (digits ++ t) = digits ++ substituteFrom params 0 (m.run digits) t := by
  induction digits generalizing m with
  | nil => rfl
  | cons c digits ih =>
    have other : c ≠ '$' := by
      rintro rfl
      exact absurd (h '$' List.mem_cons_self) (by decide)
    rw [List.cons_append, substituteFrom_cons other, ih fun d member => h d (List.mem_cons_of_mem _ member)]
    rfl

theorem paramAt_token {m : Mode} {c : Char} {s : Str} {k : Nat} (h : paramAt m (c :: s) = some k) :
    1 ≤ k ∧ (Sql.step m '$').2 = .param [] ∧
      ∃ t, c :: s = placeholder k ++ t ∧ ∀ d ∈ t.head?, isParamPart d = false ∧ d ≠ '$' := by
  unfold paramAt at h
  split at h
  · rename_i rest same
    obtain ⟨rfl, rfl⟩ := List.cons.inj same
    split at h
    · rename_i starts
      unfold canonicalNumber at h
      dsimp only at h
      split at h
      · rename_i canonical
        obtain rfl := Option.some.inj h
        refine ⟨canonical.2, starts.1, s.dropWhile isParamPart, ?_, fun d head => ⟨?_, ?_⟩⟩
        · rw [placeholder, ← canonical.1, List.cons_append, List.takeWhile_append_dropWhile]
        · have stops := List.head?_dropWhile_not isParamPart s
          rw [Option.mem_def.mp head] at stops
          simpa using stops
        · rintro rfl
          exact starts.2 head
      · cases h
    · cases h
  · cases h

theorem paramAt_some {m : Mode} {c : Char} {s : Str} {k : Nat} (h : paramAt m (c :: s) = some k) :
    1 ≤ k ∧ ∃ t, c :: s = placeholder k ++ t ∧ ∀ d ∈ t.head?, d.isDigit = false := by
  obtain ⟨positive, _, t, split, stops⟩ := paramAt_token h
  refine ⟨positive, t, split, fun d head => ?_⟩
  have notPart := (stops d head).1
  by_contra digit
  simp [isParamPart, digit] at notPart

theorem inlineUpTo_placeholder (params : List Str) {n k : Nat} (positive : 1 ≤ k) (bound : k ≤ n) :
    inlineUpTo params n (placeholder k) = inlineUpTo params (k - 1) (rendered params k) := by
  induction n with
  | zero => omega
  | succ n ih =>
    rw [inlineUpTo]
    rcases Nat.lt_or_ge n k with last | before
    · obtain rfl : k = n + 1 := by omega
      have whole : replace (placeholder (n + 1) ++ []) (placeholder (n + 1)) (rendered params (n + 1)) = _ :=
        replace_at_start (placeholder_ne_nil (n + 1)) []
      rw [List.append_nil] at whole
      rw [whole]
      simp
    · have absent : ¬ placeholder (n + 1) <:+: placeholder k := by
        intro found
        rcases List.infix_cons_iff.mp found with starts | later
        · have := le_of_decimal_prefix (List.cons_prefix_cons.mp starts).2
          omega
        · have dollar : '$' ∈ decimal k := later.subset List.mem_cons_self
          exact absurd (isDigit_of_mem_decimal dollar) (by decide)
      rw [replace_of_absent absent]
      exact ih before

theorem occurs_dollar {n : Nat} {digits t : Str} (h : ∀ c ∈ digits, c.isDigit = true)
    (apart : ∀ c ∈ t.head?, c.isDigit = false) :
    Occurs n ('$' :: digits) ↔ StartsAt n ('$' :: (digits ++ t)) := by
  refine exists_congr fun d => and_congr_right fun _ => and_congr_right fun _ => ?_
  constructor
  · intro found
    rcases List.infix_cons_iff.mp found with starts | later
    · exact starts.trans (List.prefix_append ('$' :: digits) t)
    · have dollar : '$' ∈ digits := later.subset List.mem_cons_self
      exact absurd (h '$' dollar) (by decide)
  · intro starts
    exact (prefix_of_prefix_append (List.cons_ne_nil '$' digits) (placeholder_apart d apart) starts).isInfix

/-- The substitution and the replacements agree exactly on clean texts; on others the replacements
add something. -/
theorem substitute_compares (params : List Str) (m : Mode) (s : Str) :
    Compares (Clean params m s) (substituteFrom params 0 m s) (inlineUpTo params params.length s) := by
  induction length : s.length using Nat.strong_induction_on generalizing m s with
  | _ n ih =>
    cases s with
    | nil =>
      have unchanged := (inlineUpTo_compares params params.length []).same (by
        rintro ⟨d, _, _, found⟩
        exact placeholder_ne_nil d (List.infix_nil.mp found))
      rw [← unchanged]
      exact compares_refl (clean_nil params m) []
    | cons c s =>
      rw [List.length_cons] at length
      by_cases other : c ≠ '$'
      · have rest := ih s.length (by omega) (Sql.step m c).2 s rfl
        rw [substituteFrom_cons other, inlineUpTo_cons params _ other]
        refine ((compares_refl trivial [c]).append rest).congr ?_
        rw [clean_cons, true_and, iff_and_self]
        exact fun _ => goodAt_of_not_startsAt fun starts => other (startsAt_dollar starts)
      obtain rfl := not_not.mp other
      cases token : (paramAt m ('$' :: s)).filter (· ≤ params.length) with
      | some k =>
        -- A placeholder token: its literal, and what the later replacements make of it.
        obtain ⟨found, inRange⟩ := Option.filter_eq_some_iff.mp token
        have inRange : k ≤ params.length := by simpa using inRange
        obtain ⟨positive, t, split, apart⟩ := paramAt_some found
        obtain rfl : s = decimal k ++ t := (List.cons.inj split).2
        have digits : ∀ c ∈ decimal k, c.isDigit = true := fun c member => isDigit_of_mem_decimal member
        rw [List.length_append] at length
        have rest := ih t.length (by omega) (m.run (placeholder k)) t rfl
        rw [substituteFrom, token]
        simp only
        rw [substituteFrom_skip, show '$' :: (decimal k ++ t) = placeholder k ++ t from rfl,
          inlineUpTo_append params _ _ apart, inlineUpTo_placeholder params positive inRange]
        refine ((inlineUpTo_compares params (k - 1) (rendered params k)).append rest).congr ?_
        rw [show placeholder k ++ t = '$' :: (decimal k ++ t) from rfl, clean_cons, clean_digits digits]
        apply and_congr_left
        intro _
        constructor
        · exact fun absent _ => ⟨k, found, inRange, absent⟩
        · intro good
          obtain ⟨j, also, _, absent⟩ := good ⟨k, positive, inRange, List.prefix_append (placeholder k) t⟩
          obtain rfl := Option.some.inj (found.symm.trans also)
          exact absent
      | none =>
        -- No token of a parameter: nothing may be replaced in the dollar sign and its digits.
        obtain ⟨digits, t, rfl, allDigits, apart⟩ := span_split Char.isDigit s
        rw [List.length_append] at length
        have rest := ih t.length (by omega) (m.run ('$' :: digits)) t rfl
        have kept : substituteFrom params 0 m ('$' :: (digits ++ t)) =
            ('$' :: digits) ++ substituteFrom params 0 (m.run ('$' :: digits)) t := by
          rw [substituteFrom, token]
          simp only
          rw [substituteFrom_digits allDigits]
          rfl
        have replaced : inlineUpTo params params.length ('$' :: (digits ++ t)) =
            inlineUpTo params params.length ('$' :: digits) ++ inlineUpTo params params.length t :=
          inlineUpTo_append params _ ('$' :: digits) apart
        rw [kept, replaced]
        refine ((inlineUpTo_compares params params.length ('$' :: digits)).append rest).congr ?_
        rw [clean_cons, clean_digits allDigits, occurs_dollar allDigits apart]
        refine and_congr_left fun _ => ⟨goodAt_of_not_startsAt, fun good here => ?_⟩
        obtain ⟨k, found, inRange, _⟩ := good here
        rw [found] at token
        simp at token
        omega

/-- Inlining is the simultaneous substitution of the placeholder tokens exactly if every placeholder
of a parameter in the text is a token and no literal put in holds one of a smaller number. -/
theorem inlineSqlParams_eq_substitute_iff (sql : Str) (params : List Str) :
    inlineSqlParams sql params = substitute params sql ↔ Clean params .ground sql := by
  rw [inlineSqlParams_eq, eq_comm]
  exact (substitute_compares params .ground sql).eq_iff

/-- The second parameter holds the placeholder of the first. -/
theorem nested_placeholder_rewritten :
    inlineSqlParams "SELECT $1, $2".toList ["; DROP TABLE t; --".toList, "$1".toList] ≠
      substitute ["; DROP TABLE t; --".toList, "$1".toList] "SELECT $1, $2".toList := by
  decide +kernel

end QuestRouter.Protocol
