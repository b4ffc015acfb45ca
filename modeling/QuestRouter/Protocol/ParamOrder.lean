import QuestRouter.Data.Sorted
import QuestRouter.Protocol.Inlining
import QuestRouter.Protocol.PgHandlers

/-!
# The order of parameters

A list of values keeps the places of the parameters. A map is sorted by the numbers as text, and from ten parameters
on that is another order: `$10` comes before `$2`.
-/

namespace QuestRouter.Protocol
open Text Data Routing

/-- The entries of the placeholders `$1` to `$n`, by their numbers in decimal. -/
def paramEntries (n : Nat) (bound : Nat → ScalarValue) : List (Str × ScalarValue) :=
  (List.range n).map fun i => (decimal (i + 1), bound (i + 1))

/-- The values of the placeholders `$1` to `$n`, as a list or as a map in any order. -/
def Holds (n : Nat) (bound : Nat → ScalarValue) : ParamValues → Prop
  | .list values => values = (List.range n).map fun i => bound (i + 1)
  | .map entries => entries.Perm (paramEntries n bound)

/-- Each place has the string of the value that is bound there, for the router and for inlining. -/
structure KeepsPositions (n : Nat) (bound : Nat → ScalarValue) (params : ParamValues) : Prop where
  element : ∀ i, 1 ≤ i → i ≤ n → (paramsToStrings params)[i - 1]? = some (scalarToString (bound i))
  routed : ∀ i, 1 ≤ i → i ≤ n →
    boundParam (some (paramsToStrings params)) (i - 1) = some (scalarToString (bound i))
  inlined : ∀ i, 1 ≤ i → i ≤ n →
    rendered (paramsToStrings params) i = paramLiteral (scalarToString (bound i))

theorem keepsPositions_of_element {n : Nat} {bound : Nat → ScalarValue} {params : ParamValues}
    (element : ∀ i, 1 ≤ i → i ≤ n → (paramsToStrings params)[i - 1]? = some (scalarToString (bound i))) :
    KeepsPositions n bound params := by
  refine ⟨element, element, fun i positive bounded => ?_⟩
  rw [rendered, element i positive bounded]
  rfl

def ParamValues.isList : ParamValues → Bool
  | .list _ => true
  | .map _ => false

/-- How many of the numbers up to `n` come before `k` as text. -/
def textRank (n k : Nat) : Nat := (List.range n).countP fun i => decide (decimal (i + 1) < decimal k)

/-- The values in the order of their numbers as text are, as strings, the values in the order of their numbers. -/
def SameInTextOrder (n : Nat) (bound : Nat → ScalarValue) : Prop :=
  ∀ k, 1 ≤ k → k ≤ n → scalarToString (bound k) = scalarToString (bound (textRank n k + 1))

theorem decimal_injective : Function.Injective decimal := by
  intro m n same
  have value := congrArg (Nat.ofDigitChars 10 · 0) same
  simpa only [decimal, Nat.ofDigitChars_ten_toDigits] using value

theorem paramEntries_distinct (n : Nat) (bound : Nat → ScalarValue) :
    ((paramEntries n bound).map Prod.fst).Nodup := by
  rw [paramEntries, List.map_map]
  refine List.Nodup.map (fun i j same => ?_) List.nodup_range
  exact Nat.succ.inj (decimal_injective same)

theorem length_paramEntries (n : Nat) (bound : Nat → ScalarValue) : (paramEntries n bound).length = n := by
  rw [paramEntries, List.length_map, List.length_range]

theorem place_paramEntries (n : Nat) (bound : Nat → ScalarValue) (k : Nat) :
    place (decimal k) (paramEntries n bound) = textRank n k := by
  rw [place, paramEntries, List.countP_map]
  apply List.countP_congr
  intro i _
  simp only [Function.comp_apply, decide_eq_true_eq]

/-- The value of `$k` is put at the place of `k` among the numbers as text. -/
theorem paramsToStrings_map {n : Nat} {bound : Nat → ScalarValue} {entries : List (Str × ScalarValue)}
    (holds : entries.Perm (paramEntries n bound)) {k : Nat} (positive : 1 ≤ k) (bounded : k ≤ n) :
    (paramsToStrings (.map entries))[textRank n k]? = some (scalarToString (bound k)) := by
  have distinct : (entries.map Prod.fst).Nodup :=
    (holds.map Prod.fst).nodup_iff.mpr (paramEntries_distinct n bound)
  have member : (decimal k, bound k) ∈ entries := by
    apply holds.mem_iff.mpr
    refine List.mem_map.mpr ⟨k - 1, List.mem_range.mpr (by omega), ?_⟩
    rw [Nat.sub_add_cancel positive]
  have there := sortByKey_get distinct member
  rw [place_perm holds, place_paramEntries] at there
  show ((sortByKey entries).map fun entry => scalarToString entry.2)[textRank n k]? = _
  rw [List.getElem?_map, there]
  rfl

theorem length_paramsToStrings {n : Nat} {bound : Nat → ScalarValue} {entries : List (Str × ScalarValue)}
    (holds : entries.Perm (paramEntries n bound)) : (paramsToStrings (.map entries)).length = n := by
  rw [paramsToStrings, List.length_map, List.length_mergeSort, holds.length_eq, length_paramEntries]

theorem textRank_lt {n k : Nat} (positive : 1 ≤ k) (bounded : k ≤ n) : textRank n k < n := by
  have whole : (paramEntries n fun _ => .utf8 []).Perm (paramEntries n fun _ => .utf8 []) := List.Perm.refl _
  have inside := (List.getElem?_eq_some_iff.mp (paramsToStrings_map whole positive bounded)).1
  rwa [length_paramsToStrings whole] at inside

/-- Every place below `n` is the place of a number. -/
theorem exists_textRank {n i : Nat} (inside : i < n) : ∃ k, 1 ≤ k ∧ k ≤ n ∧ textRank n k = i := by
  let entries := paramEntries n fun _ => .utf8 []
  have length : (sortByKey entries).length = n := by
    rw [(sortByKey_perm entries).length_eq, length_paramEntries]
  obtain ⟨e, there⟩ : ∃ e, (sortByKey entries)[i]? = some e := ⟨_, List.getElem?_eq_getElem (by omega)⟩
  obtain ⟨j, below, same⟩ := List.mem_map.mp ((sortByKey_perm entries).mem_iff.mp (List.mem_of_getElem? there))
  have here := place_sorted (sortByKey_pairwise (paramEntries_distinct n _)) there
  rw [place_perm (sortByKey_perm entries), ← same, place_paramEntries] at here
  exact ⟨j + 1, by omega, by rw [List.mem_range] at below; omega, here⟩

theorem keepsPositions_list (n : Nat) (bound : Nat → ScalarValue) :
    KeepsPositions n bound (.list ((List.range n).map fun i => bound (i + 1))) := by
  apply keepsPositions_of_element
  intro i positive bounded
  have below : i - 1 < n := by omega
  rw [paramsToStrings, List.map_map, List.getElem?_map, List.getElem?_range below, Option.map_some,
    Function.comp_apply, Nat.sub_add_cancel positive]

theorem keepsPositions_map_iff {n : Nat} {bound : Nat → ScalarValue} {entries : List (Str × ScalarValue)}
    (holds : entries.Perm (paramEntries n bound)) :
    KeepsPositions n bound (.map entries) ↔ SameInTextOrder n bound := by
  constructor
  · intro keeps k positive bounded
    have below := textRank_lt positive bounded
    have there := keeps.element (textRank n k + 1) (by omega) (by omega)
    rw [Nat.add_sub_cancel, paramsToStrings_map holds positive bounded] at there
    exact Option.some.inj there
  · intro same
    apply keepsPositions_of_element
    intro i positive bounded
    obtain ⟨k, first, last, place⟩ := exists_textRank (n := n) (i := i - 1) (by omega)
    have there := paramsToStrings_map holds first last
    rw [same k first last, place, Nat.sub_add_cancel positive] at there
    exact there

/-- Up to nine numbers are sorted as text the way they are as numbers. -/
theorem textRank_small {n : Nat} (few : n ≤ 9) {k : Nat} (positive : 1 ≤ k) (bounded : k ≤ n) :
    textRank n k + 1 = k := by
  have all : ∀ n < 10, ∀ i < n, textRank n (i + 1) = i := by decide +kernel
  have place := all n (by omega) (k - 1) (by omega)
  rw [Nat.sub_add_cancel positive] at place
  omega

theorem sameInTextOrder_of_few {n : Nat} (few : n ≤ 9) (bound : Nat → ScalarValue) : SameInTextOrder n bound := by
  intro k positive bounded
  rw [textRank_small few positive bounded]

/-- Parameters keep their positions in a list, in a map of at most nine, and in a larger map exactly if the values are
the same strings in the order of the texts of their numbers. -/
theorem keepsPositions_iff {n : Nat} {bound : Nat → ScalarValue} {params : ParamValues} (holds : Holds n bound params) :
    KeepsPositions n bound params ↔ params.isList = true ∨ n ≤ 9 ∨ SameInTextOrder n bound := by
  cases params with
  | list values =>
    cases holds
    exact iff_of_true (keepsPositions_list n bound) (.inl rfl)
  | map entries =>
    rw [keepsPositions_map_iff holds, or_iff_right (show ¬ (ParamValues.map entries).isList = true from nofun)]
    exact ⟨.inr, fun either => either.elim (sameInTextOrder_of_few · bound) id⟩

def swappedPair : ParamValues := .map [("2".toList, .utf8 "2".toList), ("1".toList, .utf8 "1".toList)]

theorem keepsPositions_swapped : KeepsPositions 2 (fun k => .utf8 (decimal k)) swappedPair := by
  have holds : Holds 2 (fun k => .utf8 (decimal k)) swappedPair := by
    show List.Perm [_, _] (paramEntries 2 fun k => .utf8 (decimal k))
    decide
  exact (keepsPositions_iff holds).mpr (.inr (.inl (by decide)))

/-- The tenth value is put at the place of the second, and the second at that of the third. -/
theorem tenth_param_misplaced :
    Holds 10 (fun k => .utf8 (decimal k)) (.map (paramEntries 10 fun k => .utf8 (decimal k))) ∧
      ¬ KeepsPositions 10 (fun k => .utf8 (decimal k)) (.map (paramEntries 10 fun k => .utf8 (decimal k))) := by
  refine ⟨List.Perm.refl _, fun keeps => ?_⟩
  have same := (keepsPositions_map_iff (List.Perm.refl _)).mp keeps 2 (by decide) (by decide)
  exact absurd same (by decide +kernel)

end QuestRouter.Protocol
