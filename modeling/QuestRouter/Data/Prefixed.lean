import QuestRouter.Text.Utf8

/-!
# Length-prefixed cells

A row is its cells one after the other, each a big-endian `i32` length and that many bytes. The length of a null
cell is -1. A cursor over any bytes finds a cell, a null cell, a length that runs past the end, or fewer than four
bytes.
-/

namespace QuestRouter.Data
open Text

/-- The four bytes of an `i32`. -/
def i32Bytes (n : Int) : Bytes :=
  let v := (n % 2 ^ 32).toNat
  [UInt8.ofNat (v / 2 ^ 24), UInt8.ofNat (v / 2 ^ 16), UInt8.ofNat (v / 2 ^ 8), UInt8.ofNat v]

/-- `Buf::get_i32`: the number in the first four bytes, and the cursor behind them. -/
def getI32 (buf : Bytes) : Int × Bytes :=
  let v : Nat := (buf.take 4).foldl (fun n b => 256 * n + b.toNat) 0
  (if v < 2 ^ 31 then v else v - 2 ^ 32, buf.drop 4)

theorem length_i32Bytes (n : Int) : (i32Bytes n).length = 4 := rfl

theorem getI32_bytes {n : Int} (low : -2 ^ 31 ≤ n) (high : n < 2 ^ 31) (rest : Bytes) :
    getI32 (i32Bytes n ++ rest) = (n, rest) := by
  have taken : (i32Bytes n ++ rest).take 4 = i32Bytes n := List.take_left' (length_i32Bytes n)
  have dropped : (i32Bytes n ++ rest).drop 4 = rest := List.drop_left' (length_i32Bytes n)
  rw [getI32, taken, dropped]
  simp only [i32Bytes, List.foldl_cons, List.foldl_nil, UInt8.toNat_ofNat', Prod.mk.injEq, and_true]
  obtain ⟨v, value⟩ : ∃ v : Nat, n % 2 ^ 32 = v := Int.eq_ofNat_of_zero_le (Int.emod_nonneg n (by decide))
  rw [value, Int.toNat_natCast]
  split <;> omega

/-! ### Reading one cell -/

/-- What a cursor finds; `rest` is where it is then. -/
inductive CellRead where
  | ended
  | null (rest : Bytes)
  /-- The length runs past the end. -/
  | truncated (rest : Bytes)
  | cell (bytes rest : Bytes)
  deriving DecidableEq, Repr

def readCell (buf : Bytes) : CellRead :=
  if buf.length < 4 then .ended
  else
    let (len, rest) := getI32 buf
    if len < 0 then .null rest
    else if rest.length < len.toNat then .truncated rest
    else .cell (rest.take len.toNat) (rest.drop len.toNat)

def wireCell : Option Bytes → Bytes
  | none => i32Bytes (-1)
  | some bytes => i32Bytes bytes.length ++ bytes

theorem readCell_nil : readCell [] = .ended := rfl

theorem readCell_null (rest : Bytes) : readCell (wireCell none ++ rest) = .null rest := by
  have long : ¬ (wireCell none ++ rest).length < 4 := by
    rw [List.length_append, wireCell, length_i32Bytes]
    omega
  rw [readCell, if_neg long, wireCell, getI32_bytes (by decide) (by decide)]
  rfl

theorem readCell_cell {bytes : Bytes} (short : bytes.length < 2 ^ 31) (rest : Bytes) :
    readCell (wireCell (some bytes) ++ rest) = .cell bytes rest := by
  have long : ¬ (wireCell (some bytes) ++ rest).length < 4 := by
    rw [List.length_append, wireCell, List.length_append, length_i32Bytes]
    omega
  have nonneg : ¬ (bytes.length : Int) < 0 := by omega
  have inside : ¬ (bytes ++ rest).length < bytes.length := by
    rw [List.length_append]
    omega
  rw [readCell, if_neg long, wireCell, List.append_assoc, getI32_bytes (by omega) (by omega)]
  dsimp only
  rw [if_neg nonneg, Int.toNat_natCast, if_neg inside, List.take_left, List.drop_left]

end QuestRouter.Data
