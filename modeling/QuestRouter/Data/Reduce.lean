import Mathlib.Algebra.BigOperators.Group.List.Basic
import Mathlib.Data.List.Dedup

/-!
# Reducing a list

The value of an associative operation over a nonempty list. A list that is cut into parts has the value
that the values of its nonempty parts have. Where the operation commutes, order makes no difference, and
where it is idempotent as well, neither do repetitions.
-/

namespace QuestRouter.Data
variable {α : Type*} (op : α → α → α)

def reduce : List α → Option α
  | [] => none
  | a :: as => some (as.foldl op a)

@[simp] theorem reduce_nil : reduce op [] = none := rfl

variable [Std.Associative op]

theorem reduce_cons (a : α) (xs : List α) : reduce op (a :: xs) = (some a).merge op (reduce op xs) := by
  cases xs with
  | nil => rfl
  | cons b xs =>
    show some ((b :: xs).foldl op a) = some (op a (xs.foldl op b))
    rw [List.foldl_cons, List.foldl_assoc]

theorem reduce_append (xs ys : List α) :
    reduce op (xs ++ ys) = (reduce op xs).merge op (reduce op ys) := by
  induction xs with
  | nil => cases h : reduce op ys <;> simp [h]
  | cons a xs ih =>
    rw [List.cons_append, reduce_cons, ih, reduce_cons]
    cases reduce op xs <;> cases reduce op ys <;> simp [Option.merge, Std.Associative.assoc]

/-- The value of the whole is the value of the parts that have one. -/
theorem reduce_flatten (parts : List (List α)) :
    reduce op (parts.filterMap (reduce op)) = reduce op parts.flatten := by
  induction parts with
  | nil => rfl
  | cons part parts ih =>
    rw [List.flatten_cons, reduce_append, ← ih, List.filterMap_cons]
    cases h : reduce op part with
    | none => cases reduce op (parts.filterMap (reduce op)) <;> rfl
    | some a => exact reduce_cons op a _

omit [Std.Associative op] in
theorem reduce_add {α : Type*} [AddMonoid α] (xs : List α) :
    reduce (· + ·) xs = if xs = [] then none else some xs.sum := by
  cases xs with
  | nil => rfl
  | cons a xs =>
    rw [if_neg (List.cons_ne_nil _ _), reduce, List.sum_eq_foldl, List.foldl_cons, zero_add]

/-! ### Order and repetition -/

theorem merge_left_comm [Std.Commutative op] (a b : α) (c : Option α) :
    (some a).merge op ((some b).merge op c) = (some b).merge op ((some a).merge op c) := by
  cases c with
  | none => exact congrArg some (Std.Commutative.comm a b)
  | some c =>
    have left : op (op a b) c = op a (op b c) := Std.Associative.assoc a b c
    have right : op (op b a) c = op b (op a c) := Std.Associative.assoc b a c
    have swapped : op a b = op b a := Std.Commutative.comm a b
    show some (op a (op b c)) = some (op b (op a c))
    rw [← left, ← right, swapped]

theorem reduce_perm [Std.Commutative op] {xs ys : List α} (perm : xs.Perm ys) : reduce op xs = reduce op ys := by
  induction perm with
  | nil => rfl
  | cons a _ ih => rw [reduce_cons, reduce_cons, ih]
  | swap a b xs => rw [reduce_cons, reduce_cons, reduce_cons, reduce_cons, merge_left_comm]
  | trans _ _ first second => exact first.trans second

variable [Std.Commutative op] [Std.IdempotentOp op]

theorem reduce_cons_of_mem {a : α} {xs : List α} (member : a ∈ xs) : reduce op (a :: xs) = reduce op xs := by
  obtain ⟨before, after, rfl⟩ := List.append_of_mem member
  have first : (before ++ a :: after).Perm (a :: (before ++ after)) := List.perm_middle
  rw [reduce_cons, reduce_perm op first, reduce_cons]
  cases reduce op (before ++ after) with
  | none => exact congrArg some (Std.IdempotentOp.idempotent a)
  | some b =>
    have absorbed : op (op a a) b = op a (op a b) := Std.Associative.assoc a a b
    have same : op a a = a := Std.IdempotentOp.idempotent a
    show some (op a (op a b)) = some (op a b)
    rw [← absorbed, same]

theorem reduce_dedup [DecidableEq α] (xs : List α) : reduce op xs.dedup = reduce op xs := by
  induction xs with
  | nil => rfl
  | cons a xs ih =>
    by_cases member : a ∈ xs
    · rw [List.dedup_cons_of_mem member, ih, reduce_cons_of_mem op member]
    · rw [List.dedup_cons_of_notMem member, reduce_cons, ih, reduce_cons]

theorem reduce_congr {xs ys : List α} (same : ∀ a, a ∈ xs ↔ a ∈ ys) : reduce op xs = reduce op ys := by
  classical
  have perm : xs.dedup.Perm ys.dedup :=
    (List.perm_ext_iff_of_nodup (List.nodup_dedup _) (List.nodup_dedup _)).mpr fun a => by
      rw [List.mem_dedup, List.mem_dedup, same]
  rw [← reduce_dedup op xs, reduce_perm op perm, reduce_dedup]

end QuestRouter.Data
