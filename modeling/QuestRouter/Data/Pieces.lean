import Mathlib.Algebra.GroupWithZero.Nat
import Mathlib.Data.List.Basic

/-!
# Pieces between separators

What the pieces of a list that is split at a separator contain, and how much of it.
-/

namespace QuestRouter.Data

variable {α β : Type} {sep d : α}

theorem mem_intercalate (apart : d ≠ sep) {pieces : List (List α)} :
    d ∈ [sep].intercalate pieces ↔ ∃ piece ∈ pieces, d ∈ piece := by
  induction pieces with
  | nil => simp [List.intercalate]
  | cons piece pieces ih =>
    cases pieces with
    | nil => simp
    | cons next rest =>
      rw [List.intercalate_cons_cons, List.mem_append, List.mem_append, ih, List.mem_singleton, or_iff_left apart,
        List.exists_mem_cons_iff (a := piece)]

/-- Pieces with a separator before each are a separator and the pieces with separators between them. -/
theorem flatMap_cons_eq_intercalate (sep : α) (f : β → List α) {xs : List β} (some : xs ≠ []) :
    xs.flatMap (fun x => sep :: f x) = sep :: [sep].intercalate (xs.map f) := by
  induction xs with
  | nil => exact (some rfl).elim
  | cons x xs ih =>
    rw [List.flatMap_cons, List.map_cons]
    cases xs with
    | nil => simp
    | cons y ys =>
      rw [ih (List.cons_ne_nil y ys), List.map_cons, List.intercalate_cons_cons]
      simp

theorem length_le_flatMap {g : α → List α} (grows : ∀ x, g x = [x] ∨ 1 < (g x).length) (xs : List α) :
    xs.length ≤ (xs.flatMap g).length := by
  induction xs with
  | nil => exact Nat.le_refl 0
  | cons x xs ih =>
    rw [List.flatMap_cons, List.length_append, List.length_cons]
    rcases grows x with same | longer
    · rw [same, List.length_singleton]
      omega
    · omega

/-- Where every other piece is longer, only what consists of itself piece by piece stays as it is. -/
theorem flatMap_eq_self_iff {g : α → List α} (grows : ∀ x, g x = [x] ∨ 1 < (g x).length) {xs : List α} :
    xs.flatMap g = xs ↔ ∀ x ∈ xs, g x = [x] := by
  induction xs with
  | nil => simp
  | cons x xs ih =>
    rw [List.flatMap_cons, List.forall_mem_cons, ← ih]
    rcases grows x with same | longer
    · rw [same, List.singleton_append, List.cons_inj_right]
      exact (and_iff_right rfl).symm
    · constructor
      · intro whole
        have length := congrArg List.length whole
        have rest := length_le_flatMap grows xs
        rw [List.length_append, List.length_cons] at length
        omega
      · rintro ⟨same, _⟩
        rw [same] at longer
        exact (Nat.lt_irrefl 1 longer).elim

variable [DecidableEq α]

theorem count_intercalate (apart : d ≠ sep) (pieces : List (List α)) :
    ([sep].intercalate pieces).count d = (pieces.map (List.count d)).sum := by
  induction pieces with
  | nil => rfl
  | cons piece pieces ih =>
    cases pieces with
    | nil => simp
    | cons next rest =>
      rw [List.intercalate_cons_cons, List.count_append, List.count_append, ih, List.count_singleton,
        if_neg (by simpa using apart.symm), Nat.add_zero]
      rfl

theorem count_splitOn (apart : d ≠ sep) (s : List α) : ((s.splitOn sep).map (List.count d)).sum = s.count d := by
  rw [← count_intercalate apart, List.intercalate_splitOn]

theorem mem_of_mem_piece {s piece : List α} (member : piece ∈ s.splitOn sep) (inside : d ∈ piece) : d ∈ s := by
  by_cases same : d = sep
  · subst same
    by_contra absent
    rw [List.splitOn_eq_singleton absent, List.mem_singleton] at member
    exact absent (member ▸ inside)
  · have joined : d ∈ [sep].intercalate (s.splitOn sep) := (mem_intercalate same).mpr ⟨piece, member, inside⟩
    rwa [List.intercalate_splitOn] at joined

theorem not_mem_piece {s piece : List α} (member : piece ∈ s.splitOn sep) : sep ∉ piece := by
  induction s generalizing piece with
  | nil =>
    rw [List.splitOn_nil, List.mem_singleton] at member
    rw [member]
    exact List.not_mem_nil
  | cons c s ih =>
    rw [List.splitOn_cons_eq_if_modifyHead] at member
    split at member
    · rcases List.mem_cons.mp member with rfl | later
      · exact List.not_mem_nil
      · exact ih later
    · rename_i different
      obtain ⟨head, rest, split⟩ := List.exists_cons_of_ne_nil (List.splitOn_ne_nil sep s)
      rw [split, List.modifyHead_cons] at member
      rw [split] at ih
      rcases List.mem_cons.mp member with rfl | later
      · rw [List.mem_cons, not_or]
        exact ⟨fun same => different (by simp [same]), ih List.mem_cons_self⟩
      · exact ih (List.mem_cons_of_mem _ later)

/-! ### Joins with the separator in their parts -/

theorem splitOn_intercalate_parts (sep : α) {parts : List (List α)} (some : parts ≠ []) :
    ([sep].intercalate parts).splitOn sep = parts.flatMap fun part => part.splitOn sep := by
  induction parts with
  | nil => exact (some rfl).elim
  | cons part parts ih =>
    rw [List.flatMap_cons]
    cases parts with
    | nil => rw [List.intercalate_singleton, List.flatMap_nil, List.append_nil]
    | cons next rest =>
      rw [← ih (List.cons_ne_nil next rest), List.intercalate_cons_cons, List.append_assoc, List.singleton_append,
        List.splitOn_append_cons_self]

/-- Joins are the same exactly if their parts have the same pieces. -/
theorem intercalate_eq_iff {xs ys : List (List α)} (someLeft : xs ≠ []) (someRight : ys ≠ []) :
    [sep].intercalate xs = [sep].intercalate ys ↔
      (xs.flatMap fun x => x.splitOn sep) = ys.flatMap fun y => y.splitOn sep := by
  rw [← splitOn_intercalate_parts sep someLeft, ← splitOn_intercalate_parts sep someRight]
  refine ⟨congrArg _, fun same => ?_⟩
  calc [sep].intercalate xs = [sep].intercalate (([sep].intercalate xs).splitOn sep) :=
        (List.intercalate_splitOn sep).symm
    _ = [sep].intercalate ys := by rw [same, List.intercalate_splitOn]

theorem length_splitOn (sep : α) (s : List α) : (s.splitOn sep).length = s.count sep + 1 := by
  induction s with
  | nil => rfl
  | cons c s ih =>
    rw [List.splitOn_cons_eq_if_modifyHead, List.count_cons]
    split
    · rw [List.length_cons, ih]
    · rw [List.length_modifyHead, ih, Nat.add_zero]

/-- Parts that have as many separators as their counterparts are told from the pieces of all. -/
theorem eq_of_pieces {f g : β → List α} {xs : List β} (counts : ∀ x ∈ xs, (f x).count sep = (g x).count sep)
    (same : (xs.flatMap fun x => (f x).splitOn sep) = xs.flatMap fun x => (g x).splitOn sep) :
    ∀ x ∈ xs, f x = g x := by
  induction xs with
  | nil => nofun
  | cons x xs ih =>
    obtain ⟨here, later⟩ := List.forall_mem_cons.mp counts
    have lengths : ((f x).splitOn sep).length = ((g x).splitOn sep).length := by
      rw [length_splitOn, length_splitOn, here]
    obtain ⟨first, rest⟩ := List.append_inj same lengths
    have whole := congrArg ([sep].intercalate ·) first
    dsimp only at whole
    rw [List.intercalate_splitOn, List.intercalate_splitOn] at whole
    exact List.forall_mem_cons.mpr ⟨whole, ih later rest⟩

end QuestRouter.Data
