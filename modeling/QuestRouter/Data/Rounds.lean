import Mathlib.Data.List.Basic
import Mathlib.Data.Nat.ModEq

/-!
# Rounds

A list of things is gone through again and again. Whatever has been visited since, a window as long as the list
has each of them.
-/

namespace QuestRouter.Data
variable {α : Type}

/-- These were visited in rounds through the list, and these are left of the round. -/
structure InRounds (xs visited rest : List α) : Prop where
  order : ∀ i < visited.length, visited[i]? = xs[i % xs.length]?
  left : rest = xs.drop (visited.length % xs.length) ∨ rest = [] ∧ visited.length % xs.length = 0

theorem inRounds_start (xs : List α) : InRounds xs [] xs where
  order := nofun
  left := .inl (by simp)

/-- A round ends when nothing is left of it, and the next one starts. -/
theorem InRounds.again {xs visited : List α} (rounds : InRounds xs visited []) : InRounds xs visited xs where
  order := rounds.order
  left := by
    rcases rounds.left with whole | ⟨_, whole⟩
    · left
      have beyond : xs.length ≤ visited.length % xs.length := List.drop_eq_nil_iff.mp whole.symm
      cases xs with
      | nil => exact whole
      | cons x xs =>
        have inside := Nat.mod_lt visited.length (show 0 < (x :: xs).length by simp)
        omega
    · exact .inl (by rw [whole, List.drop_zero])

theorem InRounds.next {xs visited rest : List α} {x : α} (rounds : InRounds xs visited (x :: rest)) :
    InRounds xs (visited ++ [x]) rest := by
  have left : x :: rest = xs.drop (visited.length % xs.length) := by
    rcases rounds.left with part | ⟨none, _⟩
    · exact part
    · cases none
  have here : xs[visited.length % xs.length]? = some x := by
    rw [← List.head?_drop, ← left, List.head?_cons]
  have inside : visited.length % xs.length < xs.length := (List.getElem?_eq_some_iff.mp here).1
  have behind : rest = xs.drop (visited.length % xs.length + 1) := by
    rw [← List.drop_drop, ← left, List.drop_one, List.tail_cons]
  constructor
  · intro i within
    rw [List.length_append, List.length_singleton] at within
    by_cases last : i = visited.length
    · subst last
      rw [List.getElem?_concat_length, here]
    · rw [List.getElem?_append_left (by omega)]
      exact rounds.order i (by omega)
  · rw [List.length_append, List.length_singleton]
    by_cases ends : visited.length % xs.length + 1 = xs.length
    · right
      constructor
      · rw [behind, ends, List.drop_length]
      · rw [← Nat.mod_add_mod, ends, Nat.mod_self]
    · left
      rw [← Nat.mod_add_mod, Nat.mod_eq_of_lt (by omega)]
      exact behind

theorem exists_mod {k j : Nat} (inside : j < k) (p : Nat) : ∃ i, p ≤ i ∧ i < p + k ∧ i % k = j := by
  refine ⟨p + (j + k - p % k) % k, Nat.le_add_right _ _, ?_, ?_⟩
  · have small := Nat.mod_lt (j + k - p % k) (show 0 < k by omega)
    omega
  · have bound := Nat.mod_lt p (show 0 < k by omega)
    rw [Nat.add_mod_mod, ← Nat.mod_add_mod]
    have whole : p % k + (j + k - p % k) = j + k := by omega
    rw [whole, Nat.add_mod_right, Nat.mod_eq_of_lt inside]

/-- Whatever was visited before and after, so many visits reach everything. -/
theorem InRounds.window {xs before window after rest : List α} (rounds : InRounds xs (before ++ window ++ after) rest)
    (long : xs.length ≤ window.length) {x : α} (member : x ∈ xs) : x ∈ window := by
  obtain ⟨j, inside, rfl⟩ := List.mem_iff_getElem.mp member
  obtain ⟨i, low, high, same⟩ := exists_mod inside before.length
  have visited := rounds.order i (by simp only [List.length_append]; omega)
  rw [List.append_assoc, List.getElem?_append_right low, List.getElem?_append_left (by omega), same,
    List.getElem?_eq_getElem inside] at visited
  exact List.mem_of_getElem? visited

end QuestRouter.Data
