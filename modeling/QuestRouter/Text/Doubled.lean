import QuestRouter.Text.Escape

/-!
# Doubled quotes

A quote inside a quoted text is written twice.
-/

namespace QuestRouter.Text

def doubled (q : Char) (s : Str) : Str := s.flatMap fun c => if c = q then [q, q] else [c]

variable {q : Char}

theorem replace_doubled (q : Char) (s : Str) : replace s [q] [q, q] = doubled q s := replace_char q [q, q] s

@[simp] theorem doubled_nil (q : Char) : doubled q [] = [] := rfl

theorem doubled_quote (q : Char) (s : Str) : doubled q (q :: s) = q :: q :: doubled q s := by
  rw [doubled, List.flatMap_cons, if_pos rfl]
  rfl

theorem doubled_other {c : Char} (other : c ≠ q) (s : Str) : doubled q (c :: s) = c :: doubled q s := by
  rw [doubled, List.flatMap_cons, if_neg other]
  rfl

/-- A text without the quote begins the one where it begins the other. -/
theorem prefix_doubled {w : Str} (plain : q ∉ w) (s : Str) : w <+: doubled q s ↔ w <+: s := by
  induction w generalizing s with
  | nil => simp
  | cons d w ih =>
    obtain ⟨other, plain⟩ : q ≠ d ∧ q ∉ w := by simpa using plain
    cases s with
    | nil => rfl
    | cons c s =>
      by_cases quote : c = q
      · subst quote
        rw [doubled_quote, List.cons_prefix_cons, List.cons_prefix_cons]
        exact iff_of_false (fun both => other both.1.symm) fun both => other both.1.symm
      · rw [doubled_other quote, List.cons_prefix_cons, List.cons_prefix_cons, ih plain]

theorem infix_doubled {w : Str} (plain : q ∉ w) (nonempty : w ≠ []) (s : Str) : w <:+: doubled q s ↔ w <:+: s := by
  obtain ⟨d, tail, rfl⟩ := List.exists_cons_of_ne_nil nonempty
  have other : d ≠ q := fun same => plain (same ▸ List.mem_cons_self)
  induction s with
  | nil => rfl
  | cons c s ih =>
    have later : d :: tail <:+: doubled q s ↔ d :: tail <:+: s := ih
    by_cases quote : c = q
    · subst quote
      have apart : ∀ t : Str, ¬ d :: tail <+: c :: t := fun t starts => other (List.cons_prefix_cons.mp starts).1
      rw [doubled_quote, List.infix_cons_iff, List.infix_cons_iff, later, List.infix_cons_iff]
      simp [apart]
    · have whole := prefix_doubled plain (c :: s)
      rw [doubled_other quote] at whole ⊢
      rw [List.infix_cons_iff, later, whole, List.infix_cons_iff]

end QuestRouter.Text
