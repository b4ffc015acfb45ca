import Mathlib.Data.List.Nodup
import Mathlib.Order.Lattice

/-!
# Sorted entries

Entries with different keys are sorted by their keys. The place of an entry is the number of smaller keys.
-/

namespace QuestRouter.Data

variable {κ ν : Type} [LinearOrder κ] {entries : List (κ × ν)}

def sortByKey (entries : List (κ × ν)) : List (κ × ν) := entries.mergeSort fun a b => decide (a.1 ≤ b.1)

theorem sortByKey_perm (entries : List (κ × ν)) : (sortByKey entries).Perm entries := List.mergeSort_perm _ _

theorem sortByKey_pairwise (distinct : (entries.map Prod.fst).Nodup) :
    (sortByKey entries).Pairwise fun a b => a.1 < b.1 := by
  have sorted : (sortByKey entries).Pairwise fun a b => decide (a.1 ≤ b.1) = true := by
    apply List.pairwise_mergeSort
    · intro a b c first second
      rw [decide_eq_true_eq] at first second ⊢
      exact le_trans first second
    · intro a b
      rw [Bool.or_eq_true, decide_eq_true_eq, decide_eq_true_eq]
      exact le_total a.1 b.1
  have apart : (sortByKey entries).Pairwise fun a b => a.1 ≠ b.1 :=
    List.pairwise_map.mp (((sortByKey_perm entries).map Prod.fst).nodup_iff.mpr distinct)
  refine (sorted.and apart).imp fun ⟨le, ne⟩ => ?_
  exact lt_of_le_of_ne (of_decide_eq_true le) ne

/-- How many keys are smaller. -/
def place (k : κ) (entries : List (κ × ν)) : Nat := entries.countP fun a => decide (a.1 < k)

theorem place_sorted {sorted : List (κ × ν)} (increasing : sorted.Pairwise fun a b => a.1 < b.1) {i : Nat}
    {e : κ × ν} (there : sorted[i]? = some e) : place e.1 sorted = i := by
  induction sorted generalizing i with
  | nil => cases there
  | cons first rest ih =>
    obtain ⟨least, later⟩ := List.pairwise_cons.mp increasing
    cases i with
    | zero =>
      cases there
      rw [place, List.countP_eq_zero]
      intro a member
      rw [decide_eq_true_eq, not_lt]
      rcases List.mem_cons.mp member with rfl | member
      · exact le_rfl
      · exact le_of_lt (least a member)
    | succ i =>
      have smaller : first.1 < e.1 := least e (List.mem_of_getElem? there)
      rw [place, List.countP_cons, ← place, ih later there, if_pos (decide_eq_true smaller)]

theorem place_perm {others : List (κ × ν)} (perm : entries.Perm others) (k : κ) : place k entries = place k others :=
  perm.countP_eq _

/-- Every entry stands at the place that its key has. -/
theorem sortByKey_get (distinct : (entries.map Prod.fst).Nodup) {e : κ × ν} (member : e ∈ entries) :
    (sortByKey entries)[place e.1 entries]? = some e := by
  obtain ⟨i, there⟩ := List.mem_iff_getElem?.mp ((sortByKey_perm entries).mem_iff.mpr member)
  rw [← place_perm (sortByKey_perm entries), place_sorted (sortByKey_pairwise distinct) there]
  exact there

end QuestRouter.Data
