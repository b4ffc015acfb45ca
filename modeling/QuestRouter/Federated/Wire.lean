import QuestRouter.Data.Prefixed

/-!
# Wire rows

A `DataRow` as it comes from a shard is the bytes of its cells. Four cursors read it. Where a length runs past the
end, one of them stops and the others go on behind the length.
-/

namespace QuestRouter.Federated
open Text Data

/-- The `data` of a `DataRow`. -/
abbrev WireRow := Bytes

/-- All cells, until fewer than four bytes are left or a cell is cut off. -/
def decodeRowCellRefs (row : WireRow) : List (Option Str) := go row.length row
where
  /-- Each round moves the cursor by four bytes or more. -/
  go : Nat → Bytes → List (Option Str)
  | 0, _ => []
  | rounds + 1, buf =>
    if buf.length < 4 then []
    else
      let (len, rest) := getI32 buf
      if len < 0 then none :: go rounds rest
      else if rest.length < len.toNat then []
      else fromUtf8 (rest.take len.toNat) :: go rounds (rest.drop len.toNat)

def decodeRowCells (row : WireRow) : Nat → List (Option Str)
  | 0 => []
  | cols + 1 =>
    if row.length < 4 then none :: decodeRowCells row cols
    else
      let (len, rest) := getI32 row
      if len < 0 then none :: decodeRowCells rest cols
      else if rest.length < len.toNat then none :: decodeRowCells rest cols
      else fromUtf8 (rest.take len.toNat) :: decodeRowCells (rest.drop len.toNat) cols

def firstCellString (row : WireRow) : Option Str :=
  if row.length < 4 then none
  else
    let (len, rest) := getI32 row
    if len < 0 then none
    else if rest.length < len.toNat then none
    else fromUtf8 (rest.take len.toNat)

/-- `parse` is `f64::from_str`. -/
def cellsF64 {F : Type} (parse : Str → Option F) (row : WireRow) : Nat → List (Option F)
  | 0 => []
  | n + 1 =>
    if row.length < 4 then none :: cellsF64 parse row n
    else
      let (len, rest) := getI32 row
      if len < 0 ∨ rest.length < len.toNat then none :: cellsF64 parse rest n
      else
        (fromUtf8 (rest.take len.toNat)).bind (fun s => parse (trim s)) ::
          cellsF64 parse (rest.drop len.toNat) n

/-! ### One round -/

theorem decodeRowCellRefs_go {rounds : Nat} {buf : Bytes} (enough : buf.length ≤ rounds) :
    decodeRowCellRefs.go rounds buf =
      match readCell buf with
      | .ended => []
      | .null rest => none :: decodeRowCellRefs.go rest.length rest
      | .truncated _ => []
      | .cell bytes rest => fromUtf8 bytes :: decodeRowCellRefs.go rest.length rest := by
  induction rounds using Nat.strong_induction_on generalizing buf with
  | _ rounds ih =>
    -- the rounds that are left do not matter once there are enough
    have settle : ∀ {left : Nat} {rest : Bytes}, left < rounds → rest.length ≤ left →
        decodeRowCellRefs.go left rest = decodeRowCellRefs.go rest.length rest := by
      intro left rest fewer enough
      rw [ih left fewer enough, ih rest.length (by omega) (Nat.le_refl _)]
    cases rounds with
    | zero =>
      obtain rfl := List.length_eq_zero_iff.mp (Nat.le_zero.mp enough)
      rfl
    | succ rounds =>
      rw [decodeRowCellRefs.go, readCell]
      split
      · rfl
      have behind : (getI32 buf).2.length = buf.length - 4 := List.length_drop
      dsimp only
      split
      · dsimp only
        rw [settle (by omega) (by omega)]
      split
      · rfl
      · dsimp only
        rw [settle (by omega) (by rw [List.length_drop]; omega)]

theorem decodeRowCellRefs_eq (row : WireRow) :
    decodeRowCellRefs row =
      match readCell row with
      | .ended => []
      | .null rest => none :: decodeRowCellRefs rest
      | .truncated _ => []
      | .cell bytes rest => fromUtf8 bytes :: decodeRowCellRefs rest :=
  decodeRowCellRefs_go (Nat.le_refl _)

theorem decodeRowCells_succ (row : WireRow) (cols : Nat) :
    decodeRowCells row (cols + 1) =
      match readCell row with
      | .ended => none :: decodeRowCells row cols
      | .null rest => none :: decodeRowCells rest cols
      | .truncated rest => none :: decodeRowCells rest cols
      | .cell bytes rest => fromUtf8 bytes :: decodeRowCells rest cols := by
  rw [decodeRowCells, readCell]
  split
  · rfl
  dsimp only
  split
  · rfl
  split <;> rfl

theorem firstCellString_eq (row : WireRow) :
    firstCellString row =
      match readCell row with
      | .cell bytes _ => fromUtf8 bytes
      | _ => none := by
  rw [firstCellString, readCell]
  split
  · rfl
  dsimp only
  split
  · rfl
  split <;> rfl

/-- The numbers are those of the cells, also where a cell is cut off. -/
theorem cellsF64_eq {F : Type} (parse : Str → Option F) (row : WireRow) (n : Nat) :
    cellsF64 parse row n = (decodeRowCells row n).map (·.bind fun s => parse (trim s)) := by
  induction n generalizing row with
  | zero => rfl
  | succ n ih =>
    rw [cellsF64, decodeRowCells]
    split
    · rw [ih, List.map_cons]
      rfl
    dsimp only
    by_cases negative : (getI32 row).1 < 0
    · rw [if_pos (.inl negative), if_pos negative, ih, List.map_cons]
      rfl
    rw [if_neg negative]
    by_cases cut : (getI32 row).2.length < (getI32 row).1.toNat
    · rw [if_pos (.inr cut), if_pos cut, ih, List.map_cons]
      rfl
    · rw [if_neg (not_or.mpr ⟨negative, cut⟩), if_neg cut, ih, List.map_cons]

end QuestRouter.Federated
