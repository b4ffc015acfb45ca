import Mathlib.Algebra.Group.Int.Defs
import Mathlib.Algebra.GroupWithZero.Nat
import Mathlib.Data.Char
import Mathlib.Data.List.Infix
import Mathlib.Data.List.Lex
import Mathlib.Data.List.TakeWhile

/-!
# Text

Text is the list of its characters. This module has the string operations of the standard
library that the router uses, with the ASCII case folding of `to_ascii_uppercase` and
`eq_ignore_ascii_case`.
-/

namespace QuestRouter.Text

abbrev Str := List Char

instance : LawfulBEq Str := inferInstance

/-! ### ASCII case -/

def toAsciiUppercase (s : Str) : Str := s.map Char.toUpper

def toAsciiLowercase (s : Str) : Str := s.map Char.toLower

def eqIgnoreAsciiCase (s t : Str) : Bool := toAsciiLowercase s == toAsciiLowercase t

@[simp] theorem toLower_toLower (c : Char) : c.toLower.toLower = c.toLower := by
  by_cases upper : c.val ≥ 'A'.val ∧ c.val ≤ 'Z'.val
  · have lowered : c.toLower.val = c.val + 32 := congrArg Char.val (dif_pos upper)
    have settled : ¬(c.toLower.val ≥ 'A'.val ∧ c.toLower.val ≤ 'Z'.val) := by
      rw [lowered]
      simp only [ge_iff_le, UInt32.le_iff_toNat_le, UInt32.toNat_add] at upper ⊢
      simp at upper ⊢
      omega
    exact dif_neg settled
  · have same : c.toLower = c := dif_neg upper
    rw [same, same]

@[simp] theorem toAsciiLowercase_idem (s : Str) :
    toAsciiLowercase (toAsciiLowercase s) = toAsciiLowercase s := by
  simp [toAsciiLowercase]

theorem eqIgnoreAsciiCase_iff {s t : Str} :
    eqIgnoreAsciiCase s t = true ↔ toAsciiLowercase s = toAsciiLowercase t := by
  simp [eqIgnoreAsciiCase]

@[simp] theorem eqIgnoreAsciiCase_refl (s : Str) : eqIgnoreAsciiCase s s = true := by
  simp [eqIgnoreAsciiCase]

theorem eqIgnoreAsciiCase_comm (s t : Str) : eqIgnoreAsciiCase s t = eqIgnoreAsciiCase t s := by
  rw [Bool.eq_iff_iff, eqIgnoreAsciiCase_iff, eqIgnoreAsciiCase_iff, eq_comm]

theorem eqIgnoreAsciiCase_trans {s t u : Str} (h₁ : eqIgnoreAsciiCase s t = true)
    (h₂ : eqIgnoreAsciiCase t u = true) : eqIgnoreAsciiCase s u = true := by
  rw [eqIgnoreAsciiCase_iff] at *
  exact h₁.trans h₂

@[simp] theorem eqIgnoreAsciiCase_lower_right (s t : Str) :
    eqIgnoreAsciiCase s (toAsciiLowercase t) = eqIgnoreAsciiCase s t := by
  simp [eqIgnoreAsciiCase]

/-! ### Searching -/

def find (pat : Str) : Str → Option Nat
  | [] => if pat.isPrefixOf [] then some 0 else none
  | c :: s => if pat.isPrefixOf (c :: s) then some 0 else (find pat s).map (· + 1)

def contains (s pat : Str) : Bool := (find pat s).isSome

theorem find_at {pat s : Str} {i : Nat} (h : find pat s = some i) :
    ∃ rest, s.drop i = pat ++ rest := by
  induction s generalizing i with
  | nil =>
    rw [find] at h
    split at h
    · rename_i isPrefix
      obtain rfl := Option.some.inj h
      obtain ⟨rest, same⟩ := List.isPrefixOf_iff_prefix.mp isPrefix
      exact ⟨rest, same.symm⟩
    · cases h
  | cons c s ih =>
    rw [find] at h
    split at h
    · rename_i isPrefix
      obtain rfl := Option.some.inj h
      obtain ⟨rest, same⟩ := List.isPrefixOf_iff_prefix.mp isPrefix
      exact ⟨rest, same.symm⟩
    · obtain ⟨j, found, rfl⟩ := Option.map_eq_some_iff.mp h
      simpa using ih found

theorem find_isSome_iff {pat s : Str} : (find pat s).isSome = true ↔ pat <:+: s := by
  induction s with
  | nil => simp [find]
  | cons c s ih =>
    rw [find, List.infix_cons_iff, ← ih, ← List.isPrefixOf_iff_prefix]
    split <;> simp_all

theorem contains_iff {s pat : Str} : contains s pat = true ↔ pat <:+: s := find_isSome_iff

/-! ### White space -/

/-- The Unicode property `White_Space`, as `char::is_whitespace` reads it. -/
def isWhitespace (c : Char) : Bool :=
  let n := c.toNat
  (0x09 ≤ n && n ≤ 0x0D) || n == 0x20 || n == 0x85 || n == 0xA0 || n == 0x1680 ||
    (0x2000 ≤ n && n ≤ 0x200A) || n == 0x2028 || n == 0x2029 || n == 0x202F || n == 0x205F ||
    n == 0x3000

def trimStart (s : Str) : Str := s.dropWhile isWhitespace

def trim (s : Str) : Str := (trimStart (trimStart s).reverse).reverse

/-! ### Splitting -/

/-- The characters of a kind at the front, and the rest. -/
theorem span_split (p : Char → Bool) (s : Str) :
    ∃ front rest, s = front ++ rest ∧ (∀ c ∈ front, p c = true) ∧ ∀ c ∈ rest.head?, p c = false := by
  refine ⟨s.takeWhile p, s.dropWhile p, List.takeWhile_append_dropWhile.symm,
    fun c member => List.mem_takeWhile_imp member, fun c head => ?_⟩
  have stops := List.head?_dropWhile_not p s
  rw [Option.mem_def.mp head] at stops
  simpa using stops

/-- The part after the last `sep`, the whole text if there is none: `rsplit(sep).next()`. -/
def lastSegment (sep : Char) (s : Str) : Str := (s.reverse.takeWhile (· != sep)).reverse

theorem lastSegment_of_not_mem {sep : Char} {s : Str} (absent : sep ∉ s) : lastSegment sep s = s := by
  have whole : s.reverse.takeWhile (· != sep) = s.reverse := by
    rw [List.takeWhile_eq_self_iff]
    intro c member
    rw [bne_iff_ne]
    rintro rfl
    exact absent (List.mem_reverse.mp member)
  rw [lastSegment, whole, List.reverse_reverse]

theorem lastSegment_append (sep : Char) (s t : Str) : lastSegment sep (s ++ sep :: t) = lastSegment sep t := by
  unfold lastSegment
  rw [List.reverse_append, List.reverse_cons, List.append_assoc, List.singleton_append, List.takeWhile_append]
  split
  · rename_i whole
    have whole := (List.takeWhile_prefix (· != sep)).eq_of_length whole
    simp [whole]
  · rfl

theorem mem_of_mem_lastSegment {sep c : Char} {s : Str} (member : c ∈ lastSegment sep s) : c ∈ s := by
  rw [lastSegment, List.mem_reverse] at member
  exact List.mem_reverse.mp ((List.takeWhile_prefix _).subset member)

theorem not_mem_lastSegment (sep : Char) (s : Str) : sep ∉ lastSegment sep s := by
  rw [lastSegment, List.mem_reverse]
  intro member
  simpa using List.mem_takeWhile_imp member

/-! ### Numbers -/

/-- Decimal rendering of a number, as `{}` formats it. -/
def decimal (n : Nat) : Str := Nat.toDigits 10 n

theorem isDigit_of_mem_decimal {n : Nat} {c : Char} (member : c ∈ decimal n) : c.isDigit = true :=
  Nat.isDigit_of_mem_toDigits (by decide) (by decide) member

theorem le_ofDigitChars (s : Str) (n : Nat) : n ≤ Nat.ofDigitChars 10 s n := by
  induction s generalizing n with
  | nil => simp
  | cons c s ih =>
    rw [Nat.ofDigitChars_cons]
    exact Nat.le_trans (by omega) (ih _)

theorem le_of_decimal_prefix {m n : Nat} (h : decimal m <+: decimal n) : m ≤ n := by
  obtain ⟨rest, split⟩ := h
  have value := congrArg (Nat.ofDigitChars 10 · 0) split
  simp only [decimal, Nat.ofDigitChars_append, Nat.ofDigitChars_ten_toDigits] at value
  rw [← value]
  exact le_ofDigitChars rest m

/-- `usize::from_str` on a 64-bit target: an optional plus sign, digits, no overflow. -/
def parseUsize (s : Str) : Option Nat :=
  let digits := match s with
    | '+' :: rest => rest
    | _ => s
  if digits.isEmpty || !digits.all Char.isDigit then none
  else
    let n := Nat.ofDigitChars 10 digits 0
    if n < 2 ^ 64 then some n else none

end QuestRouter.Text
