import QuestRouter.Data.Pieces
import QuestRouter.Text.Replace

/-!
# Escapes

A backslash before each character of a kind, and the replacements that put it there one character after the
other.
-/

namespace QuestRouter.Text

def backslashed (special : Char → Bool) (s : Str) : Str := s.flatMap fun c => if special c then ['\\', c] else [c]

variable {special : Char → Bool} {c d : Char} {s : Str}

theorem backslashed_cons (special : Char → Bool) (c : Char) (s : Str) :
    backslashed special (c :: s) = (if special c then ['\\', c] else [c]) ++ backslashed special s := rfl

@[simp] theorem count_backslashed (other : d ≠ '\\') (s : Str) : (backslashed special s).count d = s.count d := by
  induction s with
  | nil => rfl
  | cons c s ih =>
    rw [backslashed_cons, List.count_append, ih, List.count_cons]
    split
    · rw [List.count_cons_of_ne other.symm, List.count_singleton, Nat.add_comm]
    · rw [List.count_singleton, Nat.add_comm]

theorem mem_backslashed (other : d ≠ '\\') : d ∈ backslashed special s ↔ d ∈ s := by
  rw [← List.count_pos_iff, count_backslashed other, List.count_pos_iff]

theorem length_le_backslashed (special : Char → Bool) (s : Str) : s.length ≤ (backslashed special s).length := by
  induction s with
  | nil => exact Nat.le_refl 0
  | cons c s ih =>
    rw [backslashed_cons, List.length_append, List.length_cons]
    split
    · rw [List.length_cons, List.length_singleton]
      omega
    · rw [List.length_singleton]
      omega

/-- Only what has nothing to escape is its own escape. -/
theorem backslashed_eq_self_iff : backslashed special s = s ↔ ∀ c ∈ s, special c = false := by
  have grows : ∀ c, (if special c = true then ['\\', c] else [c]) = [c] ∨
      1 < (if special c = true then ['\\', c] else [c]).length := by
    intro c
    cases special c with
    | false => exact .inl rfl
    | true => exact .inr (Nat.lt_succ_self 1)
  rw [backslashed, Data.flatMap_eq_self_iff grows]
  apply forall₂_congr
  intro c _
  cases special c <;> simp

/-! ### Replacements -/

theorem replace_char (c : Char) (new s : Str) :
    replace s [c] new = s.flatMap fun d => if d = c then new else [d] := by
  induction s with
  | nil => rfl
  | cons d s ih =>
    rw [List.flatMap_cons, ← ih]
    by_cases same : d = c
    · subst same
      rw [if_pos rfl]
      exact replace_at_start (List.cons_ne_nil d []) s
    · rw [if_neg same]
      apply replace_cons
      intro found
      obtain ⟨rest, split⟩ := found
      exact same (List.cons.inj split).1.symm

theorem replace_backslash (s : Str) : replace s ['\\'] ['\\', '\\'] = backslashed (· == '\\') s := by
  rw [replace_char, backslashed]
  congr 1
  funext c
  by_cases same : c = '\\' <;> simp [same]

theorem replace_backslashed (special : Char → Bool) (c : Char) (apart : c ≠ '\\') (fresh : special c = false)
    (s : Str) : replace (backslashed special s) [c] ['\\', c] = backslashed (fun d => special d || d == c) s := by
  rw [replace_char, backslashed, backslashed, List.flatMap_assoc]
  congr 1
  funext d
  by_cases same : d = c
  · subst same
    simp [fresh]
  · cases special d <;> simp [same, apart.symm]

end QuestRouter.Text
