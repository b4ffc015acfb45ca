import QuestRouter.Text.Escape
import QuestRouter.Text.Utf8

/-!
# Form encoding

A space is written as a plus sign, a kept character as itself, and every byte of another character as a percent
sign and two digits. A reader that knows plus signs only reads back what had no byte to be written out.
-/

namespace QuestRouter.Text

/-- Which characters are written as they are. -/
structure FormEncoding where
  kept : Char → Bool
  plain : ∀ c, kept c = true → c.toNat < 128 ∧ c ≠ '%' ∧ c ≠ '+' ∧ c ≠ ' '

def hexDigits : Str := "0123456789ABCDEF".toList

def hexDigit (n : Nat) : Char := (hexDigits[n]?).getD '0'

def percentByte (b : UInt8) : Str := ['%', hexDigit (b.toNat / 16), hexDigit (b.toNat % 16)]

def percentChar (c : Char) : Str := (String.utf8EncodeChar c).flatMap percentByte

namespace FormEncoding

def encodeChar (e : FormEncoding) (c : Char) : Str :=
  if c = ' ' then ['+'] else if e.kept c then [c] else percentChar c

def encode (e : FormEncoding) (s : Str) : Str := s.flatMap e.encodeChar

/-- What a character is written as, but for the plus sign. -/
def spacedChar (e : FormEncoding) (c : Char) : Str := if c = ' ' ∨ e.kept c = true then [c] else percentChar c

end FormEncoding

/-! ### Written bytes -/

theorem hexDigit_mem (n : Nat) : hexDigit n ∈ hexDigits := by
  unfold hexDigit
  cases found : hexDigits[n]? with
  | none => decide
  | some c => exact List.mem_of_getElem? found

theorem hexDigit_space {b : UInt8} (high : hexDigit (b.toNat / 16) = '2') (low : hexDigit (b.toNat % 16) = '0') :
    b = asciiByte ' ' := by
  have two : ∀ n < 16, hexDigit n = '2' → n = 2 := by decide
  have zero : ∀ n < 16, hexDigit n = '0' → n = 0 := by decide
  have small : b.toNat < 256 := b.toNat_lt
  have upper := two (b.toNat / 16) (by omega) high
  have lower := zero (b.toNat % 16) (by omega) low
  apply UInt8.toNat.inj
  have space : (asciiByte ' ').toNat = 32 := rfl
  omega

theorem mem_percentChar {c d : Char} (member : d ∈ percentChar c) : d = '%' ∨ d ∈ hexDigits := by
  obtain ⟨b, _, written⟩ := List.mem_flatMap.mp member
  unfold percentByte at written
  rcases List.mem_cons.mp written with rfl | written
  · exact .inl rfl
  rcases List.mem_cons.mp written with rfl | written
  · exact .inr (hexDigit_mem _)
  · obtain rfl := List.mem_singleton.mp written
    exact .inr (hexDigit_mem _)

theorem length_percentChar (c : Char) : 1 < (percentChar c).length := by
  have some : String.utf8EncodeChar c ≠ [] := by
    intro none
    have length := congrArg List.length none
    rw [String.length_utf8EncodeChar, List.length_nil] at length
    have positive := c.utf8Size_pos
    omega
  obtain ⟨b, rest, split⟩ := List.exists_cons_of_ne_nil some
  rw [percentChar, split, List.flatMap_cons, List.length_append]
  exact Nat.lt_add_right _ (show 1 < 3 by decide)

/-! ### Replacing `%20` and plus signs -/

def percentSpace : Str := "%20".toList

theorem replace_percentByte {b : UInt8} (other : b ≠ asciiByte ' ') (s : Str) :
    replace (percentByte b ++ s) percentSpace [' '] = percentByte b ++ replace s percentSpace [' '] := by
  have digit : ∀ {n t}, ¬ percentSpace <+: hexDigit n :: t := by
    rintro n t ⟨_, split⟩
    have member := hexDigit_mem n
    rw [← (List.cons.inj split).1] at member
    exact absurd member (by decide)
  have start : ¬ percentSpace <+: '%' :: hexDigit (b.toNat / 16) :: hexDigit (b.toNat % 16) :: s := by
    rintro ⟨_, split⟩
    obtain ⟨_, split⟩ := List.cons.inj split
    obtain ⟨high, split⟩ := List.cons.inj split
    obtain ⟨low, _⟩ := List.cons.inj split
    exact other (hexDigit_space high.symm low.symm)
  simp only [percentByte, List.cons_append, List.nil_append]
  rw [replace_cons start, replace_cons digit, replace_cons digit]

theorem replace_percentChar {c : Char} (other : c ≠ ' ') (s : Str) :
    replace (percentChar c ++ s) percentSpace [' '] = percentChar c ++ replace s percentSpace [' '] := by
  have bytes : ∀ b ∈ String.utf8EncodeChar c, b ≠ asciiByte ' ' := by
    rintro b member rfl
    exact other ((asciiByte_mem_encode (by decide)).mp member)
  unfold percentChar
  generalize String.utf8EncodeChar c = written at bytes ⊢
  induction written with
  | nil => rfl
  | cons b rest ih =>
    obtain ⟨first, later⟩ := List.forall_mem_cons.mp bytes
    rw [List.flatMap_cons, List.append_assoc, replace_percentByte first, ih later, List.append_assoc]

namespace FormEncoding

variable (e : FormEncoding)

/-- No space is written as `%20`. -/
theorem replace_encode (s : Str) : replace (e.encode s) percentSpace [' '] = e.encode s := by
  have alone : ∀ {c t}, c ≠ '%' → ¬ percentSpace <+: c :: t := by
    rintro c t other ⟨_, split⟩
    exact other (List.cons.inj split).1.symm
  induction s with
  | nil => rfl
  | cons c s ih =>
    change replace (e.encodeChar c ++ e.encode s) percentSpace [' '] = e.encodeChar c ++ e.encode s
    unfold encodeChar
    split
    · rw [List.singleton_append, replace_cons (alone (by decide)), ih]
    rename_i other
    split
    · rename_i kept
      rw [List.singleton_append, replace_cons (alone (e.plain c kept).2.1), ih]
    · rw [replace_percentChar other, ih]

theorem replace_plus (s : Str) : replace (e.encode s) ['+'] [' '] = s.flatMap e.spacedChar := by
  have unchanged : ∀ {t : Str}, '+' ∉ t → (t.flatMap fun d => if d = '+' then [' '] else [d]) = t := by
    intro t absent
    have each : ∀ d ∈ t, (if d = '+' then [' '] else [d]) = [d] := by
      intro d member
      rw [if_neg]
      rintro rfl
      exact absent member
    rw [List.flatMap_congr each, List.flatMap_singleton']
  rw [replace_char, encode, List.flatMap_assoc]
  apply List.flatMap_congr
  intro c _
  unfold encodeChar spacedChar
  by_cases space : c = ' '
  · simp [space]
  by_cases kept : e.kept c = true
  · have plain := (e.plain c kept).2.2.1
    simp [space, kept, plain]
  · rw [if_neg space, if_neg kept, if_neg (not_or.mpr ⟨space, kept⟩)]
    apply unchanged
    intro member
    rcases mem_percentChar member with impossible | digit
    · cases impossible
    · exact absurd digit (by decide)

theorem spaced_eq_self_iff {s : Str} : s.flatMap e.spacedChar = s ↔ ∀ c ∈ s, c = ' ' ∨ e.kept c = true := by
  have grows : ∀ c, e.spacedChar c = [c] ∨ 1 < (e.spacedChar c).length := by
    intro c
    unfold spacedChar
    split
    · exact .inl rfl
    · exact .inr (length_percentChar c)
  rw [Data.flatMap_eq_self_iff grows]
  apply forall₂_congr
  intro c _
  unfold spacedChar
  constructor
  · intro same
    by_contra other
    rw [if_neg other] at same
    have length := length_percentChar c
    rw [same] at length
    exact Nat.lt_irrefl 1 length
  · exact fun read => if_pos read

/-- Only a kept character stays itself. -/
theorem count_spaced_le {d : Char} (apart : d ≠ '%' ∧ d ∉ hexDigits) (s : Str) :
    (s.flatMap e.spacedChar).count d ≤ s.count d := by
  have gone : ∀ c, (percentChar c).count d = 0 := by
    intro c
    apply List.count_eq_zero_of_not_mem
    intro member
    rcases mem_percentChar member with same | digit
    · exact apart.1 same
    · exact apart.2 digit
  induction s with
  | nil => exact Nat.le_refl 0
  | cons c s ih =>
    rw [List.flatMap_cons, List.count_append, List.count_cons]
    have first : (e.spacedChar c).count d ≤ if (c == d) = true then 1 else 0 := by
      unfold spacedChar
      split
      · rw [List.count_singleton]
      · rw [gone]
        exact Nat.zero_le _
    omega

end FormEncoding
end QuestRouter.Text
