import QuestRouter.Federated.Wire

/-!
# Cells of wire rows

A row that is written cell by cell is read back by every cursor. On other bytes the cursors agree until a length
runs past the end; behind it there must be no text for the ones that go on.
-/

namespace QuestRouter.Federated
open Text Data

/-- The first `n` cells, NULL for those that are missing. -/
def firstCells (n : Nat) (cells : List (Option Str)) : List (Option Str) := (cells.take n).rightpad n none

@[simp] theorem firstCells_zero (cells : List (Option Str)) : firstCells 0 cells = [] := by
  simp [firstCells, List.rightpad]

theorem firstCells_nil (n : Nat) : firstCells n [] = List.replicate n none := by
  simp [firstCells, List.rightpad]

theorem firstCells_cons (n : Nat) (cell : Option Str) (cells : List (Option Str)) :
    firstCells (n + 1) (cell :: cells) = cell :: firstCells n cells := by
  simp only [firstCells, List.rightpad, List.take_succ_cons, List.length_cons, List.cons_append,
    Nat.add_sub_add_right]

theorem firstCells_get {n i : Nat} (inside : i < n) (cells : List (Option Str)) :
    (firstCells n cells)[i]? = some cells[i]?.join := by
  induction n generalizing i cells with
  | zero => omega
  | succ n ih =>
    cases cells with
    | nil => rw [firstCells_nil, List.getElem?_replicate_of_lt inside]; rfl
    | cons cell cells =>
      rw [firstCells_cons]
      cases i with
      | zero => rfl
      | succ i => exact ih (by omega) cells

theorem length_firstCells (n : Nat) (cells : List (Option Str)) : (firstCells n cells).length = n := by
  rw [firstCells, List.rightpad, List.length_append, List.length_replicate, List.length_take]
  omega

/-! ### Written rows -/

def wireRow (cells : List (Option Str)) : WireRow := cells.flatMap fun cell => wireCell (cell.map asBytes)

/-- The length of every cell is an `i32`. -/
def Short (cells : List (Option Str)) : Prop := ∀ cell ∈ cells, ∀ s ∈ cell, (asBytes s).length < 2 ^ 31

theorem readCell_wireRow {cell : Option Str} {cells : List (Option Str)} (short : Short (cell :: cells)) :
    readCell (wireRow (cell :: cells)) =
      match cell with
      | none => .null (wireRow cells)
      | some s => .cell (asBytes s) (wireRow cells) := by
  cases cell with
  | none => exact readCell_null (wireRow cells)
  | some s => exact readCell_cell (short (some s) List.mem_cons_self s rfl) (wireRow cells)

theorem Short.tail {cell : Option Str} {cells : List (Option Str)} (short : Short (cell :: cells)) : Short cells :=
  fun other member => short other (List.mem_cons_of_mem _ member)

theorem decodeRowCellRefs_wireRow {cells : List (Option Str)} (short : Short cells) :
    decodeRowCellRefs (wireRow cells) = cells := by
  induction cells with
  | nil => rfl
  | cons cell cells ih =>
    rw [decodeRowCellRefs_eq, readCell_wireRow short]
    cases cell with
    | none => exact congrArg (none :: ·) (ih short.tail)
    | some s =>
      show fromUtf8 (asBytes s) :: decodeRowCellRefs (wireRow cells) = some s :: cells
      rw [fromUtf8_asBytes, ih short.tail]

theorem decodeRowCells_nil (n : Nat) : decodeRowCells [] n = List.replicate n none := by
  induction n with
  | zero => rfl
  | succ n ih =>
    rw [decodeRowCells_succ, readCell_nil, List.replicate_succ]
    exact congrArg (none :: ·) ih

theorem decodeRowCells_wireRow {cells : List (Option Str)} (short : Short cells) (n : Nat) :
    decodeRowCells (wireRow cells) n = firstCells n cells := by
  induction cells generalizing n with
  | nil => rw [firstCells_nil]; exact decodeRowCells_nil n
  | cons cell cells ih =>
    cases n with
    | zero => rw [firstCells_zero]; rfl
    | succ n =>
      rw [decodeRowCells_succ, readCell_wireRow short, firstCells_cons]
      cases cell with
      | none => exact congrArg (none :: ·) (ih short.tail n)
      | some s =>
        show fromUtf8 (asBytes s) :: decodeRowCells (wireRow cells) n = some s :: firstCells n cells
        rw [fromUtf8_asBytes, ih short.tail n]

theorem firstCellString_wireRow {cells : List (Option Str)} (short : Short cells) :
    firstCellString (wireRow cells) = cells.head?.join := by
  cases cells with
  | nil => rfl
  | cons cell cells =>
    rw [firstCellString_eq, readCell_wireRow short]
    cases cell with
    | none => rfl
    | some s => exact fromUtf8_asBytes s

/-- Every cursor reads the cells that were written. -/
theorem cursors_read_wireRow {F : Type} (parse : Str → Option F) {cells : List (Option Str)} (short : Short cells) :
    decodeRowCellRefs (wireRow cells) = cells ∧
      (∀ n, decodeRowCells (wireRow cells) n = (cells.take n).rightpad n none) ∧
      firstCellString (wireRow cells) = cells.head?.join ∧
      ∀ n, cellsF64 parse (wireRow cells) n =
        ((cells.take n).rightpad n none).map (·.bind fun s => parse (trim s)) := by
  refine ⟨decodeRowCellRefs_wireRow short, decodeRowCells_wireRow short, firstCellString_wireRow short, fun n => ?_⟩
  rw [cellsF64_eq, decodeRowCells_wireRow short, firstCells]

theorem cursors_read_wireRow_mixed :
    cellsF64 parseUsize (wireRow [some " 15 ".toList, none, some "x".toList, some [], some "7".toList]) 6 =
      [some 15, none, none, none, some 7, none] := by
  have short : Short [some " 15 ".toList, none, some "x".toList, some [], some "7".toList] := by
    unfold Short
    decide
  rw [(cursors_read_wireRow parseUsize short).2.2.2]
  decide +kernel

/-! ### Rows that are cut off -/

/-- Where the length of one of the first `n` cells runs past the end: the cells to go, and what is behind it. -/
def cutOff : Nat → Bytes → Option (Nat × Bytes)
  | 0, _ => none
  | n + 1, buf =>
    match readCell buf with
    | .ended => none
    | .null rest => cutOff n rest
    | .truncated rest => some (n, rest)
    | .cell _ rest => cutOff n rest

/-- One of the `n` cells that are read from here on, whatever is cut off, is text. -/
def HoldsText : Nat → Bytes → Prop
  | 0, _ => False
  | n + 1, buf =>
    match readCell buf with
    | .ended => False
    | .null rest => HoldsText n rest
    | .truncated rest => HoldsText n rest
    | .cell bytes rest => (fromUtf8 bytes).isSome = true ∨ HoldsText n rest

/-- The cursors agree on the first `n` cells of a row. -/
structure CursorsAgree {F : Type} (parse : Str → Option F) (row : WireRow) (n : Nat) : Prop where
  cells : ∀ i < n, (decodeRowCells row n)[i]? = some (decodeRowCellRefs row)[i]?.join
  numbers : ∀ i < n, (cellsF64 parse row n)[i]? =
    some ((decodeRowCellRefs row)[i]?.join.bind fun s => parse (trim s))
  /-- No later cell is read out of the bytes of one that is cut off. -/
  nothingLater : ∀ left rest, cutOff n row = some (left, rest) →
    ∀ i < n, n - left ≤ i → (decodeRowCells row n)[i]? = some none

theorem decodeRowCells_ended {buf : Bytes} (ended : readCell buf = .ended) (n : Nat) :
    decodeRowCells buf n = List.replicate n none := by
  induction n with
  | zero => rfl
  | succ n ih =>
    rw [decodeRowCells_succ, ended, List.replicate_succ]
    exact congrArg (none :: ·) ih

theorem nulls_iff (buf : Bytes) (n : Nat) : decodeRowCells buf n = List.replicate n none ↔ ¬ HoldsText n buf := by
  induction n generalizing buf with
  | zero => exact ⟨fun _ => not_false, fun _ => rfl⟩
  | succ n ih =>
    rw [decodeRowCells_succ, List.replicate_succ, HoldsText]
    cases read : readCell buf with
    | ended => exact ⟨fun _ => not_false, fun _ => congrArg (none :: ·) (decodeRowCells_ended read n)⟩
    | null rest => rw [List.cons_inj_right, ih rest]
    | truncated rest => rw [List.cons_inj_right, ih rest]
    | cell bytes rest => rw [List.cons.injEq, ih rest, not_or, Option.isSome_iff_ne_none, not_not]

theorem length_decodeRowCells (row : WireRow) (n : Nat) : (decodeRowCells row n).length = n := by
  induction n generalizing row with
  | zero => rfl
  | succ n ih =>
    rw [decodeRowCells_succ]
    split <;> rw [List.length_cons, ih]

/-- The cursor that goes on reads what the one that stops reads, unless there is text behind the cut. -/
theorem decodeRowCells_eq_iff (row : WireRow) (n : Nat) :
    decodeRowCells row n = firstCells n (decodeRowCellRefs row) ↔
      ∀ left rest, cutOff n row = some (left, rest) → ¬ HoldsText left rest := by
  induction n generalizing row with
  | zero => exact ⟨fun _ _ _ => nofun, fun _ => (firstCells_zero _).symm⟩
  | succ n ih =>
    rw [decodeRowCells_succ, decodeRowCellRefs_eq, cutOff]
    cases read : readCell row with
    | ended =>
      dsimp only
      rw [firstCells_nil, List.replicate_succ, decodeRowCells_ended read n]
      exact ⟨fun _ _ _ => nofun, fun _ => rfl⟩
    | null rest =>
      dsimp only
      rw [firstCells_cons, List.cons_inj_right]
      exact ih rest
    | truncated rest =>
      dsimp only
      rw [firstCells_nil, List.replicate_succ, List.cons_inj_right, nulls_iff]
      constructor
      · rintro noText _ _ ⟨⟩
        exact noText
      · exact fun behind => behind n rest rfl
    | cell bytes rest =>
      dsimp only
      rw [firstCells_cons, List.cons_inj_right]
      exact ih rest

/-- Of a row that is cut off, the cells from the cut on are missing for the cursor that stops. -/
theorem refs_cutOff {row rest : WireRow} {n left : Nat} (cut : cutOff n row = some (left, rest)) :
    left < n ∧ (decodeRowCellRefs row).length < n - left := by
  induction n generalizing row with
  | zero => cases cut
  | succ n ih =>
    rw [cutOff] at cut
    rw [decodeRowCellRefs_eq]
    cases read : readCell row with
    | ended =>
      rw [read] at cut
      cases cut
    | null next =>
      rw [read] at cut
      obtain ⟨fewer, length⟩ := ih cut
      show _ ∧ (none :: decodeRowCellRefs next).length < _
      rw [List.length_cons]
      omega
    | truncated next =>
      rw [read] at cut
      cases cut
      show _ ∧ ([] : List (Option Str)).length < _
      rw [List.length_nil]
      omega
    | cell bytes next =>
      rw [read] at cut
      obtain ⟨fewer, length⟩ := ih cut
      show _ ∧ (fromUtf8 bytes :: decodeRowCellRefs next).length < _
      rw [List.length_cons]
      omega

/-- The cursors agree on every row that is not cut off, and on the others exactly if no text is read behind the
length that runs past the end. -/
theorem cursorsAgree_iff {F : Type} (parse : Str → Option F) (row : WireRow) (n : Nat) :
    CursorsAgree parse row n ↔ ∀ left rest, cutOff n row = some (left, rest) → ¬ HoldsText left rest := by
  rw [← decodeRowCells_eq_iff]
  constructor
  · intro agree
    apply List.ext_getElem?
    intro i
    by_cases inside : i < n
    · rw [agree.cells i inside, firstCells_get inside]
    · rw [List.getElem?_eq_none (by rw [length_decodeRowCells]; omega),
        List.getElem?_eq_none (by rw [length_firstCells]; omega)]
  · intro same
    have cells : ∀ i < n, (decodeRowCells row n)[i]? = some (decodeRowCellRefs row)[i]?.join := by
      intro i inside
      rw [same, firstCells_get inside]
    refine ⟨cells, fun i inside => ?_, fun left rest cut i inside later => ?_⟩
    · rw [cellsF64_eq, List.getElem?_map, cells i inside]
      rfl
    · have missing := (refs_cutOff cut).2
      rw [cells i inside, List.getElem?_eq_none (by omega)]
      rfl

/-- The second cell is read out of the bytes of the first. -/
theorem cut_cell_read_on :
    decodeRowCellRefs [0, 0, 0, 9, 0, 0, 0, 1, 55] = [] ∧
      decodeRowCells [0, 0, 0, 9, 0, 0, 0, 1, 55] 2 = [none, some "7".toList] ∧
      cellsF64 parseUsize [0, 0, 0, 9, 0, 0, 0, 1, 55] 2 = [none, some 7] ∧
      ¬ CursorsAgree parseUsize [0, 0, 0, 9, 0, 0, 0, 1, 55] 2 := by
  have refs : decodeRowCellRefs [0, 0, 0, 9, 0, 0, 0, 1, 55] = [] := by decide +kernel
  have read : decodeRowCells [0, 0, 0, 9, 0, 0, 0, 1, 55] 2 = [none, some "7".toList] := by decide +kernel
  refine ⟨refs, read, by decide +kernel, fun agree => ?_⟩
  have second := agree.cells 1 (by decide)
  rw [refs, read] at second
  cases second

end QuestRouter.Federated
