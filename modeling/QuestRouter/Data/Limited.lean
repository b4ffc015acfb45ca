import Mathlib.Data.List.Perm.Basic
import Mathlib.Data.List.Basic

/-!
# Limits over parts

With a limit, an answer is so many of the rows, or all of them if there are fewer. If each part of the rows is
asked with the limit, what the parts answer has enough rows for an answer over all of them.
-/

namespace QuestRouter.Data
variable {α ι : Type}

/-- All rows, or so many of them, in any order. -/
def Limited (limit : Option Nat) (rows out : List α) : Prop :=
  ∃ rest, (out ++ rest).Perm rows ∧ (limit = none → rest = []) ∧ ∀ n ∈ limit, out.length = min n rows.length

def cut (limit : Option Nat) (rows : List α) : List α :=
  match limit with
  | none => rows
  | some n => rows.take n

theorem Limited.perm {limit : Option Nat} {rows rows' out : List α} (limited : Limited limit rows out)
    (same : rows.Perm rows') : Limited limit rows' out := by
  obtain ⟨rest, perm, whole, enough⟩ := limited
  exact ⟨rest, perm.trans same, whole, fun n member => same.length_eq ▸ enough n member⟩

theorem limited_none {rows out : List α} : Limited none rows out ↔ out.Perm rows := by
  constructor
  · intro limited
    obtain ⟨rest, perm, whole, _⟩ := limited
    rwa [whole rfl, List.append_nil] at perm
  · intro perm
    exact ⟨[], by rwa [List.append_nil], fun _ => rfl, nofun⟩

/-- Rows of which enough are there can be cut to the limit. -/
theorem limited_take {n : Nat} {rows out rest : List α} (perm : (out ++ rest).Perm rows)
    (enough : min n rows.length ≤ out.length) : Limited (some n) rows (out.take n) := by
  refine ⟨out.drop n ++ rest, ?_, nofun, ?_⟩
  · rwa [← List.append_assoc, List.take_append_drop]
  · intro k same
    obtain rfl := Option.some.inj same
    have total := perm.length_eq
    rw [List.length_append] at total
    rw [List.length_take]
    omega

theorem enough_flatMap {n : Nat} {ids : List ι} {rows outs : ι → List α}
    (each : ∀ i ∈ ids, Limited (some n) (rows i) (outs i)) :
    ∃ rest, (ids.flatMap outs ++ rest).Perm (ids.flatMap rows) ∧
      min n (ids.flatMap rows).length ≤ (ids.flatMap outs).length := by
  induction ids with
  | nil => exact ⟨[], .refl _, by simp⟩
  | cons i ids ih =>
    obtain ⟨⟨rest, perm, _, many⟩, later⟩ := List.forall_mem_cons.mp each
    obtain ⟨others, permOthers, enough⟩ := ih later
    have many := many n rfl
    refine ⟨rest ++ others, ?_, ?_⟩
    · simp only [List.flatMap_cons]
      -- The rest of the first part goes behind what the other parts answer.
      have moved : (outs i ++ ids.flatMap outs ++ (rest ++ others)).Perm
          (outs i ++ rest ++ (ids.flatMap outs ++ others)) := by
        rw [List.append_assoc, List.append_assoc]
        apply List.Perm.append_left
        rw [← List.append_assoc, ← List.append_assoc]
        exact List.perm_append_comm.append_right others
      exact moved.trans (perm.append permOthers)
    · simp only [List.flatMap_cons, List.length_append]
      omega

/-- What the parts answer with the limit, cut to it, is an answer over all of them. -/
theorem limited_flatMap {limit : Option Nat} {ids : List ι} {rows outs : ι → List α}
    (each : ∀ i ∈ ids, Limited limit (rows i) (outs i)) :
    Limited limit (ids.flatMap rows) (cut limit (ids.flatMap outs)) := by
  cases limit with
  | none => exact limited_none.mpr (List.Perm.flatMap_left ids fun i member => limited_none.mp (each i member))
  | some n =>
    obtain ⟨rest, perm, enough⟩ := enough_flatMap each
    exact limited_take perm enough

end QuestRouter.Data
