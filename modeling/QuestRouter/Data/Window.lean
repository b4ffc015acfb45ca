import Mathlib.Data.List.DropRight

/-!
# Windows

The last elements of a list: windows of windows, of a list that grows, and of what a filter leaves.
-/

namespace QuestRouter.Data
variable {α β : Type*}

theorem rtake_rtake (xs : List α) (m n : Nat) : (xs.rtake m).rtake n = xs.rtake (min n m) := by
  simp only [List.rtake_eq_reverse_take_reverse, List.reverse_reverse, List.take_take]

theorem rtake_min_length (xs : List α) (n : Nat) : xs.rtake (min n xs.length) = xs.rtake n := by
  rw [List.rtake_eq_reverse_take_reverse, List.rtake_eq_reverse_take_reverse, ← List.length_reverse,
    ← List.take_eq_take_min]

theorem rtake_map (f : α → β) (xs : List α) (n : Nat) : (xs.map f).rtake n = (xs.rtake n).map f := by
  rw [List.rtake_eq_reverse_take_reverse, List.rtake_eq_reverse_take_reverse, ← List.map_reverse, ← List.map_take,
    ← List.map_reverse]

theorem rtake_concat (xs : List α) (x : α) (n : Nat) : (xs ++ [x]).rtake n = ((xs.rtake n) ++ [x]).rtake n := by
  cases n with
  | zero => rw [List.rtake_zero, List.rtake_zero]
  | succ n =>
    rw [List.rtake_concat_succ, List.rtake_concat_succ, rtake_rtake, Nat.min_eq_left (Nat.le_succ n)]

theorem rtake_filter {p : α → Bool} {xs : List α} {n : Nat} (kept : ∀ x ∈ xs.rtake n, p x = true) :
    (xs.filter p).rtake n = xs.rtake n := by
  induction xs using List.reverseRecOn generalizing n with
  | nil => rfl
  | append_singleton xs x ih =>
    cases n with
    | zero => rw [List.rtake_zero, List.rtake_zero]
    | succ n =>
      rw [List.rtake_concat_succ] at kept ⊢
      have last : p x = true := kept x (List.mem_append_right _ List.mem_cons_self)
      have rest := ih fun y member => kept y (List.mem_append_left _ member)
      rw [List.filter_append, List.filter_cons_of_pos last, List.filter_nil, List.rtake_concat_succ, rest]

end QuestRouter.Data
