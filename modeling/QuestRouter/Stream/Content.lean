import QuestRouter.Ingest.Nautilus
import QuestRouter.Stream.RowText
import QuestRouter.Text.Escape

/-!
# Lines of rows

A line that is written from a measurement, tags, fields and a timestamp, escaped as the ingest does it, and the
row that it stands for.
-/

namespace QuestRouter.Stream
open Text Routing Ilp Ingest

/-! ### Escapes of the ingest -/

def isQuoted (c : Char) : Bool := c == '\\' || c == '"'

theorem escapeTag_eq (s : Str) : Nautilus.escapeTag s = escape s := by
  have chars : ∀ c : Char, (((c == '\\' || c == ' ') || c == ',') || c == '=') = isSpecial c := by
    intro c
    simp only [isSpecial]
    cases c == '\\' <;> cases c == ' ' <;> cases c == ',' <;> cases c == '=' <;> rfl
  have space := replace_backslashed (· == '\\') ' ' (by decide) (by decide) s
  have comma := replace_backslashed (fun c => c == '\\' || c == ' ') ',' (by decide) (by decide) s
  have equals := replace_backslashed (fun c => (c == '\\' || c == ' ') || c == ',') '=' (by decide) (by decide) s
  rw [escape_eq_backslashed, ← funext chars, ← equals, ← comma, ← space, ← replace_backslash]
  rfl

theorem escapeFieldString_eq (s : Str) : Nautilus.escapeFieldString s = backslashed isQuoted s := by
  have quoted := replace_backslashed (· == '\\') '"' (by decide) (by decide) s
  rw [← replace_backslash] at quoted
  exact quoted

/-! ### Integers -/

/-- `{}` of an integer. -/
def decimalInt (n : Int) : Str := if n < 0 then '-' :: decimal n.natAbs else decimal n.natAbs

theorem decimal_ne_nil (n : Nat) : decimal n ≠ [] := Nat.toDigits_ne_nil

theorem decimalInt_ne_nil (n : Int) : decimalInt n ≠ [] := by
  unfold decimalInt
  split
  · exact List.cons_ne_nil _ _
  · exact decimal_ne_nil _

theorem mem_decimalInt {n : Int} {c : Char} (member : c ∈ decimalInt n) : c = '-' ∨ c.isDigit = true := by
  unfold decimalInt at member
  split at member
  · exact (List.mem_cons.mp member).imp_right isDigit_of_mem_decimal
  · exact .inr (isDigit_of_mem_decimal member)

theorem not_mem_decimalInt {n : Int} {c : Char} (other : c ≠ '-' ∧ c.isDigit = false) : c ∉ decimalInt n := by
  intro member
  rcases mem_decimalInt member with rfl | digit
  · exact other.1 rfl
  · rw [other.2] at digit
    cases digit

theorem digits_decimal (n : Nat) : ((decimal n).isEmpty || !(decimal n).all Char.isDigit) = false := by
  have digits : (decimal n).all Char.isDigit = true := List.all_eq_true.mpr fun _ => isDigit_of_mem_decimal
  rw [digits, List.isEmpty_eq_false_iff.mpr (decimal_ne_nil n)]
  rfl

theorem value_decimal (n : Nat) : Nat.ofDigitChars 10 (decimal n) 0 = n := Nat.ofDigitChars_ten_toDigits

theorem parseI64_decimalInt (n : Int64) : parseI64 (decimalInt n.toInt) = some n.toInt := by
  have low := n.le_toInt
  have high := n.toInt_lt
  generalize n.toInt = k at low high
  have range : (-2 ^ 63 ≤ k && k < 2 ^ 63) = true := by
    rw [Bool.and_eq_true, decide_eq_true_eq, decide_eq_true_eq]
    exact ⟨low, high⟩
  unfold decimalInt
  split
  · rename_i negative
    have value : -(k.natAbs : Int) = k := by omega
    simp only [parseI64, digits_decimal, Bool.false_eq_true, if_false, value_decimal, Option.map_some, value]
    exact Option.filter_some_pos range
  · rename_i positive
    have value : (k.natAbs : Int) = k := by omega
    have unsigned : ∀ c rest, decimal k.natAbs = c :: rest → c ≠ '+' ∧ c ≠ '-' := by
      intro c rest split
      have digit : c.isDigit = true := isDigit_of_mem_decimal (by rw [split]; exact List.mem_cons_self)
      constructor <;> rintro rfl <;> exact absurd digit (by decide)
    unfold parseI64
    split
    · rename_i split
      exact ((unsigned _ _ split).1 rfl).elim
    · rename_i split
      exact ((unsigned _ _ split).2 rfl).elim
    · simp only [digits_decimal, Bool.false_eq_true, if_false, value_decimal, value]
      exact Option.filter_some_pos range

/-! ### Contents -/

inductive Value where
  | integer (n : Int64)
  | bool (b : Bool) (word : { word // word ∈ spellings b })
  | string (s : Str)

def Value.text : Value → Str
  | integer n => decimalInt n.toInt ++ ['i']
  | bool _ word => word
  | string s => '"' :: (Nautilus.escapeFieldString s ++ ['"'])

def Value.field {F : Type} : Value → IlpField F
  | integer n => .integer n.toInt
  | bool b _ => .bool b
  | string s => .string s

/-- What a line is written from. -/
structure Content where
  measurement : Str
  tags : List (Str × Str)
  fields : List (Str × Value)
  timestampNs : Option Int64
  hasField : fields ≠ []
  oneLine : '\n' ∉ measurement ∧ (∀ tag ∈ tags, '\n' ∉ tag.1 ∧ '\n' ∉ tag.2) ∧
    ∀ field ∈ fields, '\n' ∉ field.1 ∧ ∀ s, field.2 = .string s → '\n' ∉ s

def tagPiece (tag : Str × Str) : Str := Nautilus.escapeTag tag.1 ++ '=' :: Nautilus.escapeTag tag.2

def fieldPiece (field : Str × Value) : Str := Nautilus.escapeTag field.1 ++ '=' :: field.2.text

namespace Content

def fieldsText (content : Content) : Str := [','].intercalate (content.fields.map fieldPiece)

def timestampText (content : Content) : Str :=
  match content.timestampNs with
  | some n => ' ' :: decimalInt n.toInt
  | none => []

def text (content : Content) : Str :=
  Nautilus.escapeTag content.measurement ++ content.tags.flatMap (fun tag => ',' :: tagPiece tag) ++
    ' ' :: (content.fieldsText ++ content.timestampText)

def row {F : Type} (content : Content) : IlpRow F where
  measurement := content.measurement
  tags := content.tags
  fields := content.fields.map fun field => (field.1, field.2.field)
  timestampNs := content.timestampNs.map Int64.toInt

end Content

end QuestRouter.Stream
