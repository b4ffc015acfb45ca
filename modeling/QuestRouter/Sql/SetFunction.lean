import Mathlib.Algebra.BigOperators.Ring.List
import Mathlib.Algebra.Order.Field.Rat
import QuestRouter.Data.Reduce
import QuestRouter.Sql.Truth

/-!
# Set functions

What `count`, `sum`, `min`, `max` and `avg` say of the cells of their argument. Numbers are exact.
-/

namespace QuestRouter.Sql
open Text Data

abbrev Cell := Val ℚ

inductive SetFunction where
  | count
  | sum
  | min
  | max
  | avg
  deriving DecidableEq, Repr

def setFunction (name : Str) : Option SetFunction :=
  if eqIgnoreAsciiCase name "count".toList then some .count
  else if eqIgnoreAsciiCase name "sum".toList then some .sum
  else if eqIgnoreAsciiCase name "min".toList then some .min
  else if eqIgnoreAsciiCase name "max".toList then some .max
  else if eqIgnoreAsciiCase name "avg".toList then some .avg
  else none

namespace Val

def number? : Cell → Option ℚ
  | .number n => some n
  | _ => none

/-- A number or `NULL`. -/
def isNumeric : Cell → Bool
  | .number _ => true
  | .null => true
  | _ => false

def ofNumber : Option ℚ → Cell
  | some n => .number n
  | none => .null

@[simp] theorem number?_ofNumber (n : Option ℚ) : (ofNumber n).number? = n := by
  cases n <;> rfl

end Val

def numbers (cells : List Cell) : List ℚ := cells.filterMap Val.number?

namespace SetFunction

def average (ns : List ℚ) : Option ℚ := if ns = [] then none else some (ns.sum / ns.length)

/-- Of cells that are numbers or `NULL`; for `count` they may be anything. -/
def value : SetFunction → List Cell → Cell
  | .count, cells => .number (cells.countP (· ≠ .null))
  | .sum, cells => .ofNumber (reduce (· + ·) (numbers cells))
  | .min, cells => .ofNumber (reduce Min.min (numbers cells))
  | .max, cells => .ofNumber (reduce Max.max (numbers cells))
  | .avg, cells => .ofNumber (average (numbers cells))

/-- `count` has a value for any cells, the others for numbers and `NULL`. -/
def covers (fn : SetFunction) (cells : List Cell) : Bool := fn == .count || cells.all Val.isNumeric

theorem covers_of_numeric (fn : SetFunction) {cells : List Cell} (numeric : cells.all Val.isNumeric = true) :
    fn.covers cells = true := by
  rw [covers, numeric, Bool.or_true]

theorem covers_mono {fn : SetFunction} {cells cells' : List Cell} (covered : fn.covers cells' = true)
    (fewer : cells ⊆ cells') : fn.covers cells = true := by
  rw [covers, Bool.or_eq_true, List.all_eq_true] at *
  exact covered.imp_right fun numeric cell member => numeric cell (fewer member)

/-! ### Order, repetition and absence -/

theorem value_perm (fn : SetFunction) {cells cells' : List Cell} (perm : cells.Perm cells') :
    fn.value cells = fn.value cells' := by
  have found : (numbers cells).Perm (numbers cells') := perm.filterMap _
  cases fn with
  | count => rw [value, value, perm.countP_eq]
  | sum => rw [value, value, reduce_perm _ found]
  | min => rw [value, value, reduce_perm _ found]
  | max => rw [value, value, reduce_perm _ found]
  | avg =>
    have empty : numbers cells = [] ↔ numbers cells' = [] :=
      ⟨fun h => (h ▸ found).nil_eq.symm, fun h => (h ▸ found).eq_nil⟩
    rw [value, value, average, average, found.sum_eq, found.length_eq]
    simp only [empty]

theorem value_congr {fn : SetFunction} (extreme : fn = .min ∨ fn = .max) {cells cells' : List Cell}
    (same : ∀ cell, cell ∈ cells ↔ cell ∈ cells') : fn.value cells = fn.value cells' := by
  have found : ∀ n, n ∈ numbers cells ↔ n ∈ numbers cells' := by
    intro n
    simp only [numbers, List.mem_filterMap, same]
  rcases extreme with rfl | rfl
  · rw [value, value, reduce_congr _ found]
  · rw [value, value, reduce_congr _ found]

theorem numbers_append (cells cells' : List Cell) : numbers (cells ++ cells') = numbers cells ++ numbers cells' :=
  List.filterMap_append

/-- The value does not change where these cells, which it is of already, are added again. -/
def AddsNothing : SetFunction → List Cell → Prop
  | .sum, again => (numbers again).sum = 0
  | .min, _ | .max, _ => True
  | .count, again | .avg, again => ∀ cell ∈ again, cell = .null

theorem value_append_iff {fn : SetFunction} (notAvg : fn ≠ .avg) {cells again : List Cell} (old : again ⊆ cells) :
    fn.value (cells ++ again) = fn.value cells ↔ fn.AddsNothing again := by
  have same : ∀ cell, cell ∈ cells ++ again ↔ cell ∈ cells := by
    intro cell
    rw [List.mem_append, or_iff_left_of_imp]
    exact fun member => old member
  cases fn with
  | count =>
    rw [value, value, List.countP_append, Val.number.injEq, Nat.cast_inj, Nat.add_eq_left, List.countP_eq_zero,
      AddsNothing]
    simp only [ne_eq, decide_not, Bool.not_eq_true', decide_eq_false_iff_not, not_not]
  | sum =>
    rw [value, value, reduce_add, reduce_add, numbers_append, AddsNothing]
    by_cases empty : numbers cells = []
    · have nothing : numbers again = [] := List.subset_nil.mp (empty ▸ List.filterMap_subset _ old)
      simp [empty, nothing]
    · have some_numbers : numbers cells ++ numbers again ≠ [] := List.append_ne_nil_of_left_ne_nil empty _
      rw [if_neg empty, if_neg some_numbers, List.sum_append, Val.ofNumber, Val.ofNumber, Val.number.injEq,
        add_eq_left]
  | min => exact iff_of_true (value_congr (.inl rfl) same) trivial
  | max => exact iff_of_true (value_congr (.inr rfl) same) trivial
  | avg => exact (notAvg rfl).elim

theorem count_numeric {cells : List Cell} (numeric : cells.all Val.isNumeric = true) :
    cells.countP (· ≠ .null) = (numbers cells).length := by
  induction cells with
  | nil => rfl
  | cons cell cells ih =>
    rw [List.all_cons, Bool.and_eq_true] at numeric
    cases cell with
    | null => simpa [numbers, List.filterMap_cons, Val.number?] using ih numeric.2
    | number n => simpa [numbers, List.filterMap_cons, Val.number?] using ih numeric.2
    | text s => cases numeric.1
    | boolean b => cases numeric.1

theorem numbers_eq_nil {cells : List Cell} (numeric : cells.all Val.isNumeric = true) :
    numbers cells = [] ↔ ∀ cell ∈ cells, cell = .null := by
  rw [List.all_eq_true] at numeric
  rw [numbers, List.filterMap_eq_nil_iff]
  refine forall₂_congr fun cell member => ?_
  have numeric := numeric cell member
  cases cell <;> simp_all [Val.number?, Val.isNumeric]

/-! ### Cells in parts -/

theorem numbers_flatten (parts : List (List Cell)) : numbers parts.flatten = (parts.map numbers).flatten := by
  rw [numbers, List.filterMap_flatten]
  rfl

theorem reduce_numbers (op : ℚ → ℚ → ℚ) [Std.Associative op] (parts : List (List Cell)) :
    reduce op (numbers (parts.map fun cells => .ofNumber (reduce op (numbers cells)))) =
      reduce op (numbers parts.flatten) := by
  have values : numbers (parts.map fun cells => .ofNumber (reduce op (numbers cells))) =
      (parts.map numbers).filterMap (reduce op) := by
    rw [numbers, List.filterMap_map, List.filterMap_map]
    congr 1
    funext cells
    exact Val.number?_ofNumber _
  rw [values, reduce_flatten, numbers_flatten]

theorem sum_count (parts : List (List Cell)) :
    (numbers (parts.map fun cells => value .count cells)).sum = (parts.flatten.countP (· ≠ .null) : ℚ) := by
  induction parts with
  | nil => rfl
  | cons cells parts ih =>
    rw [List.map_cons, List.flatten_cons, List.countP_append, Nat.cast_add, ← ih]
    rfl

end SetFunction
end QuestRouter.Sql
