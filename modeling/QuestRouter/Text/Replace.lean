import QuestRouter.Text.Str

/-!
# Replacement

`str::replace`: the occurrences of a pattern, found from the left and not overlapping, are replaced.
-/

namespace QuestRouter.Text

/-- Replacement in a text of which the first `skip` characters belong to an occurrence. -/
def replaceFrom (pat new : Str) : Nat → Str → Str
  | _, [] => []
  | skip + 1, _ :: s => replaceFrom pat new skip s
  | 0, c :: s =>
    if pat.isPrefixOf (c :: s) then new ++ replaceFrom pat new (pat.length - 1) s
    else c :: replaceFrom pat new 0 s

def replace (s pat new : Str) : Str := replaceFrom pat new 0 s

variable {pat new : Str}

theorem replaceFrom_skip (skip : Nat) (s : Str) :
    replaceFrom pat new skip s = replace (s.drop skip) pat new := by
  induction skip generalizing s with
  | zero => rfl
  | succ skip ih =>
    cases s with
    | nil => rfl
    | cons c s => exact ih s

@[simp] theorem replace_nil : replace [] pat new = [] := rfl

theorem replace_cons {c : Char} {s : Str} (h : ¬ pat <+: c :: s) :
    replace (c :: s) pat new = c :: replace s pat new := by
  rw [replace, replaceFrom, if_neg (by rwa [List.isPrefixOf_iff_prefix])]
  rfl

theorem replace_skip {first : Char} {tail plain : Str} (absent : first ∉ plain) (s : Str) :
    replace (plain ++ s) (first :: tail) new = plain ++ replace s (first :: tail) new := by
  induction plain with
  | nil => rfl
  | cons c plain ih =>
    rw [List.mem_cons, not_or] at absent
    rw [List.cons_append, replace_cons, ih absent.2, List.cons_append]
    exact fun found => absent.1 (List.cons_prefix_cons.mp found).1

theorem replace_at_start (nonempty : pat ≠ []) (s : Str) :
    replace (pat ++ s) pat new = new ++ replace s pat new := by
  obtain ⟨c, tail, rfl⟩ := List.exists_cons_of_ne_nil nonempty
  have found : (c :: tail).isPrefixOf (c :: (tail ++ s)) = true :=
    List.isPrefixOf_iff_prefix.mpr ⟨s, rfl⟩
  rw [replace, List.cons_append, replaceFrom, if_pos found, replaceFrom_skip]
  simp

theorem replaceInduction {P : Str → Prop} (nonempty : pat ≠ []) (nil : P [])
    (cons : ∀ c s, ¬ pat <+: c :: s → P s → P (c :: s)) (found : ∀ s, P s → P (pat ++ s)) (s : Str) : P s := by
  induction length : s.length using Nat.strong_induction_on generalizing s with
  | _ n ih =>
    cases s with
    | nil => exact nil
    | cons c s =>
      by_cases here : pat <+: c :: s
      · obtain ⟨rest, split⟩ := here
        have shorter : rest.length < n := by
          have := List.length_pos_iff.mpr nonempty
          have total := congrArg List.length split
          rw [List.length_append] at total
          omega
        rw [← split]
        exact found rest (ih rest.length shorter rest rfl)
      · refine cons c s here (ih s.length ?_ s rfl)
        rw [List.length_cons] at length
        omega

theorem replace_of_absent {s : Str} (absent : ¬ pat <:+: s) : replace s pat new = s := by
  induction s with
  | nil => rfl
  | cons c s ih =>
    have here : ¬ pat <+: c :: s := fun found => absent found.isInfix
    have later : ¬ pat <:+: s := fun found => absent (found.trans (List.suffix_cons c s).isInfix)
    rw [replace_cons here, ih later]

theorem prefix_of_prefix_append {s t : Str} (started : s ≠ []) (apart : ∀ c ∈ t.head?, c ∉ pat.tail)
    (h : pat <+: s ++ t) : pat <+: s := by
  rcases List.prefix_or_prefix_of_prefix h (List.prefix_append s t) with inside | ⟨more, rfl⟩
  · exact inside
  · cases more with
    | nil => simp
    | cons c more =>
      obtain ⟨first, tail, rfl⟩ := List.exists_cons_of_ne_nil started
      obtain ⟨rest, continues⟩ := (List.prefix_append_right_inj _).mp h
      have head : c ∈ t.head? := by simp [← continues]
      exact (apart c head (by simp)).elim

theorem replace_append (nonempty : pat ≠ []) {t : Str} (apart : ∀ c ∈ t.head?, c ∉ pat.tail) (s : Str) :
    replace (s ++ t) pat new = replace s pat new ++ replace t pat new := by
  induction s using replaceInduction nonempty with
  | nil => rfl
  | cons c s here ih =>
    have here' : ¬ pat <+: c :: (s ++ t) := fun found =>
      here (prefix_of_prefix_append (List.cons_ne_nil c s) apart found)
    rw [List.cons_append, replace_cons here', replace_cons here, ih, List.cons_append]
  | found s ih =>
    rw [List.append_assoc, replace_at_start nonempty, replace_at_start nonempty, ih, List.append_assoc]

end QuestRouter.Text
