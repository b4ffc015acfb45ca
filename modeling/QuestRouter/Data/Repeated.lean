import Mathlib.Data.List.Dedup
import Mathlib.Data.List.Perm.Basic

/-!
# Repeated values

A list is cut into parts, and the repetitions within each part are dropped. What is left has the values of the
whole, and besides, for each part, those of its values that a later part has too.
-/

namespace QuestRouter.Data
variable {α : Type*}

/-! ### Erasing repetitions -/

section
variable [BEq α]

variable [LawfulBEq α]

end

variable [DecidableEq α]

def repeated : List (List α) → List α
  | [] => []
  | part :: parts => part.dedup.filter (· ∈ parts.flatten) ++ repeated parts

theorem mem_of_mem_repeated {parts : List (List α)} {a : α} (again : a ∈ repeated parts) : a ∈ parts.flatten := by
  induction parts with
  | nil => cases again
  | cons part parts ih =>
    rw [List.flatten_cons, List.mem_append]
    rcases List.mem_append.mp again with here | later
    · exact .inl (List.mem_dedup.mp (List.mem_filter.mp here).1)
    · exact .inr (ih later)

theorem dedup_append_perm (xs ys : List α) :
    ((xs ++ ys).dedup ++ xs.dedup.filter (· ∈ ys)).Perm (xs.dedup ++ ys.dedup) := by
  rw [List.perm_iff_count]
  intro a
  by_cases there : a ∈ ys
  · have kept : (xs.dedup.filter (· ∈ ys)).count a = xs.dedup.count a := List.count_filter (decide_eq_true there)
    simp only [List.count_append, kept, List.count_dedup, List.mem_append, there, or_true, if_true]
    exact Nat.add_comm _ _
  · have none : a ∉ xs.dedup.filter (· ∈ ys) := fun kept => there (of_decide_eq_true (List.mem_filter.mp kept).2)
    simp only [List.count_append, List.count_eq_zero.mpr none, List.count_dedup, List.mem_append, there, or_false,
      if_false]

theorem dedup_flatten_perm (parts : List (List α)) :
    (parts.flatten.dedup ++ repeated parts).Perm (parts.map List.dedup).flatten := by
  induction parts with
  | nil => exact .refl _
  | cons part parts ih =>
    have first := (dedup_append_perm part parts.flatten).append_right (repeated parts)
    rw [List.append_assoc, List.append_assoc] at first
    exact first.trans (ih.append_left part.dedup)

section
variable [BEq α] [LawfulBEq α] {β : Type*} {key : β → α}

end

end QuestRouter.Data
