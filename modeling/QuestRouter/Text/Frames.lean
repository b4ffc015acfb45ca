import Mathlib.Data.List.Basic

/-!
# Delimited frames

A sequence of which every occurrence of a delimiter ends a frame. What follows the last delimiter
is an incomplete frame, carried over to the input that comes next.
-/

namespace QuestRouter.Text
variable {α : Type} [DecidableEq α]

/-- The frames of the input, and the incomplete frame after them, when `acc` was read before. -/
def frames (d : α) (acc : List α) : List α → List (List α) × List α
  | [] => ([], acc)
  | x :: xs =>
    if x = d then
      let (complete, rest) := frames d [] xs
      ((acc ++ [x]) :: complete, rest)
    else frames d (acc ++ [x]) xs

/-- Input in two parts is framed like the whole. -/
theorem frames_append (d : α) (acc xs ys : List α) :
    frames d acc (xs ++ ys) =
      ((frames d acc xs).1 ++ (frames d (frames d acc xs).2 ys).1, (frames d (frames d acc xs).2 ys).2) := by
  induction xs generalizing acc with
  | nil => simp [frames]
  | cons x xs ih =>
    simp only [List.cons_append, frames]
    split
    · simp [ih]
    · exact ih _

theorem frames_of_not_mem {d : α} {xs : List α} (absent : d ∉ xs) (acc : List α) :
    frames d acc xs = ([], acc ++ xs) := by
  induction xs generalizing acc with
  | nil => simp [frames]
  | cons x xs ih =>
    obtain ⟨head, tail⟩ : ¬d = x ∧ d ∉ xs := by simpa using absent
    rw [frames, if_neg (Ne.symm head), ih tail]
    simp

theorem frames_first {d : α} {xs : List α} (absent : d ∉ xs) (ys : List α) :
    frames d [] (xs ++ d :: ys) = ((xs ++ [d]) :: (frames d [] ys).1, (frames d [] ys).2) := by
  rw [frames_append, frames_of_not_mem absent]
  simp [frames]

/-- Frames that are put after each other are found again. -/
theorem frames_flatMap {d : α} {xss : List (List α)} (absent : ∀ xs ∈ xss, d ∉ xs) :
    frames d [] (xss.flatMap (· ++ [d])) = (xss.map (· ++ [d]), []) := by
  induction xss with
  | nil => rfl
  | cons xs xss ih =>
    obtain ⟨here, later⟩ := List.forall_mem_cons.mp absent
    rw [List.flatMap_cons, List.append_assoc, List.singleton_append, frames_first here, ih later]
    rfl

theorem frames_delimited {d : α} {acc : List α} (absent : d ∉ acc) (xs : List α) :
    (∀ frame ∈ (frames d acc xs).1, ∃ body, frame = body ++ [d] ∧ d ∉ body) ∧
      d ∉ (frames d acc xs).2 := by
  induction xs generalizing acc with
  | nil => exact ⟨nofun, absent⟩
  | cons x xs ih =>
    rw [frames]
    split
    · rename_i same
      obtain ⟨complete, rest⟩ := ih (show d ∉ [] by simp)
      refine ⟨fun frame member => ?_, rest⟩
      rcases List.mem_cons.mp member with rfl | later
      · exact ⟨acc, by rw [same], absent⟩
      · exact complete frame later
    · rename_i different
      exact ih (by simp [absent, Ne.symm different])

theorem frames_resume (d : α) (xs ys : List α) :
    frames d [] ((frames d [] xs).2 ++ ys) = frames d (frames d [] xs).2 ys := by
  have absent := (frames_delimited (show d ∉ [] by simp) xs).2
  rw [frames_append, frames_of_not_mem absent]
  simp

end QuestRouter.Text
