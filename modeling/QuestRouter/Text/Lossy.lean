import QuestRouter.Text.Utf8

/-!
# Lossy decoding of valid text

`from_utf8_lossy` gives back text that was encoded as it is.
-/

namespace QuestRouter.Text

theorem utf8CharWidth_eq {b : UInt8} {width : Nat}
    (range : width = 1 ∧ b.toNat < 128 ∨ width = 2 ∧ 194 ≤ b.toNat ∧ b.toNat < 224 ∨
      width = 3 ∧ 224 ≤ b.toNat ∧ b.toNat < 240 ∨ width = 4 ∧ 240 ≤ b.toNat ∧ b.toNat < 245) :
    utf8CharWidth b = width := by
  have low := @UInt8.lt_iff_toNat_lt b 0x80
  have second := @UInt8.lt_iff_toNat_lt b 0xC2
  have third := @UInt8.lt_iff_toNat_lt b 0xE0
  have fourth := @UInt8.lt_iff_toNat_lt b 0xF0
  have last := @UInt8.lt_iff_toNat_lt b 0xF5
  simp only [UInt8.reduceToNat] at low second third fourth last
  simp only [utf8CharWidth, low, second, third, fourth, last]
  rcases range with ⟨rfl, _⟩ | ⟨rfl, _, _⟩ | ⟨rfl, _, _⟩ | ⟨rfl, _, _⟩
  · rw [if_pos (by omega)]
  · rw [if_neg (by omega), if_neg (by omega), if_pos (by omega)]
  · rw [if_neg (by omega), if_neg (by omega), if_neg (by omega), if_pos (by omega)]
  · rw [if_neg (by omega), if_neg (by omega), if_neg (by omega), if_neg (by omega), if_pos (by omega)]

/-- A continuation byte with these low bits. -/
def continuation (n : Nat) : UInt8 := UInt8.ofNat (n % 64 + 128)

theorem continuation_toNat (n : Nat) : (continuation n).toNat = n % 64 + 128 := by
  rw [continuation, UInt8.toNat_ofNat']
  omega

theorem isContinuation_continuation (n : Nat) : isContinuation (continuation n) = true := by
  have all : ∀ k : Fin 64, isContinuation (UInt8.ofNat (k.val + 128)) = true := by decide
  exact all ⟨n % 64, Nat.mod_lt _ (by omega)⟩

theorem lowBits_continuation (n : Nat) : lowBits (continuation n) = n % 64 := by
  rw [lowBits, continuation_toNat]
  omega

theorem secondByteOk_continuation {first : UInt8} {n : Nat} (e0 : first.toNat = 0xE0 → 32 ≤ n % 64)
    (ed : first.toNat = 0xED → n % 64 < 32) (f0 : first.toNat = 0xF0 → 16 ≤ n % 64)
    (f4 : first.toNat = 0xF4 → n % 64 < 16) : secondByteOk first (continuation n) = true := by
  have least : ∀ k : UInt8, k ≤ continuation n ↔ k.toNat ≤ n % 64 + 128 := fun k => by
    rw [UInt8.le_iff_toNat_le, continuation_toNat]
  have most : ∀ k : UInt8, continuation n ≤ k ↔ n % 64 + 128 ≤ k.toNat := fun k => by
    rw [UInt8.le_iff_toNat_le, continuation_toNat]
  have bound := Nat.mod_lt n (show 0 < 64 by omega)
  unfold secondByteOk
  split
  · rename_i same
    have here := e0 (by rw [beq_iff_eq.mp same]; rfl)
    simp only [least, most, Bool.and_eq_true, decide_eq_true_eq, UInt8.reduceToNat]
    omega
  split
  · rename_i same
    have here := ed (by rw [beq_iff_eq.mp same]; rfl)
    simp only [least, most, Bool.and_eq_true, decide_eq_true_eq, UInt8.reduceToNat]
    omega
  split
  · rename_i same
    have here := f0 (by rw [beq_iff_eq.mp same]; rfl)
    simp only [least, most, Bool.and_eq_true, decide_eq_true_eq, UInt8.reduceToNat]
    omega
  split
  · rename_i same
    have here := f4 (by rw [beq_iff_eq.mp same]; rfl)
    simp only [least, most, Bool.and_eq_true, decide_eq_true_eq, UInt8.reduceToNat]
    omega
  · exact isContinuation_continuation n

theorem ofNat_toNat_of_lt {k : Nat} (small : k < 256) : (UInt8.ofNat k).toNat = k := by
  rw [UInt8.toNat_ofNat']
  omega

/-! ### The bytes of a character -/

section Encoded
variable (v : Nat)

/-- The first of two bytes, of three and of four. -/
def firstOfTwo : UInt8 := UInt8.ofNat (v / 64 % 32 + 192)
def firstOfThree : UInt8 := UInt8.ofNat (v / 4096 % 16 + 224)
def firstOfFour : UInt8 := UInt8.ofNat (v / 262144 % 8 + 240)

theorem firstOfTwo_toNat : (firstOfTwo v).toNat = v / 64 % 32 + 192 := ofNat_toNat_of_lt (by omega)

theorem firstOfThree_toNat : (firstOfThree v).toNat = v / 4096 % 16 + 224 := ofNat_toNat_of_lt (by omega)

theorem firstOfFour_toNat : (firstOfFour v).toNat = v / 262144 % 8 + 240 := ofNat_toNat_of_lt (by omega)

variable {v}

theorem width_one (one : v ≤ 127) : utf8CharWidth (UInt8.ofNat v) = 1 :=
  utf8CharWidth_eq (.inl ⟨rfl, by rw [ofNat_toNat_of_lt (by omega)]; omega⟩)

theorem width_two (more : ¬ v ≤ 127) (two : v ≤ 2047) : utf8CharWidth (firstOfTwo v) = 2 :=
  utf8CharWidth_eq (.inr (.inl ⟨rfl, by rw [firstOfTwo_toNat]; omega, by rw [firstOfTwo_toNat]; omega⟩))

theorem width_three : utf8CharWidth (firstOfThree v) = 3 :=
  utf8CharWidth_eq (.inr (.inr (.inl ⟨rfl, by rw [firstOfThree_toNat]; omega, by rw [firstOfThree_toNat]; omega⟩)))

theorem width_four (valid : v < 0x110000) : utf8CharWidth (firstOfFour v) = 4 :=
  utf8CharWidth_eq (.inr (.inr (.inr ⟨rfl, by rw [firstOfFour_toNat]; omega, by rw [firstOfFour_toNat]; omega⟩)))

theorem second_three (more : ¬ v ≤ 2047) (valid : v < 0xD800 ∨ 0xDFFF < v) (three : v ≤ 65535) :
    secondByteOk (firstOfThree v) (continuation (v / 64)) = true := by
  apply secondByteOk_continuation <;> rw [firstOfThree_toNat] <;> intro same <;> omega

theorem second_four (more : ¬ v ≤ 65535) (valid : v < 0x110000) :
    secondByteOk (firstOfFour v) (continuation (v / 4096)) = true := by
  apply secondByteOk_continuation <;> rw [firstOfFour_toNat] <;> intro same <;> omega

end Encoded

/-- The four forms of an encoded character. -/
theorem utf8EncodeChar_cases (c : Char) :
    let v := c.val.toNat
    (v ≤ 127 ∧ String.utf8EncodeChar c = [UInt8.ofNat v]) ∨
    (¬ v ≤ 127 ∧ v ≤ 2047 ∧ String.utf8EncodeChar c = [firstOfTwo v, continuation v]) ∨
    (¬ v ≤ 2047 ∧ v ≤ 65535 ∧
      String.utf8EncodeChar c = [firstOfThree v, continuation (v / 64), continuation v]) ∨
    (¬ v ≤ 65535 ∧ String.utf8EncodeChar c =
      [firstOfFour v, continuation (v / 4096), continuation (v / 64), continuation v]) := by
  intro v
  by_cases one : v ≤ 127
  · exact .inl ⟨one, if_pos one⟩
  by_cases two : v ≤ 2047
  · exact .inr (.inl ⟨one, two, (if_neg one).trans (if_pos two)⟩)
  by_cases three : v ≤ 65535
  · exact .inr (.inr (.inl ⟨two, three, (if_neg one).trans ((if_neg two).trans (if_pos three))⟩))
  · exact .inr (.inr (.inr ⟨three, (if_neg one).trans ((if_neg two).trans (if_neg three))⟩))

/-- One character is read back, whatever follows it. -/
theorem lossy_char (n : Nat) (c : Char) (rest : Bytes) :
    fromUtf8Lossy.go (n + 1) (String.utf8EncodeChar c ++ rest) = c :: fromUtf8Lossy.go n rest := by
  have back : Char.ofNat c.val.toNat = c := Char.ofNat_toNat c
  have valid : c.val.toNat < 0xD800 ∨ 0xDFFF < c.val.toNat ∧ c.val.toNat < 0x110000 := c.valid
  have forms := utf8EncodeChar_cases c
  generalize c.val.toNat = v at back valid forms
  rcases forms with ⟨one, form⟩ | ⟨more, two, form⟩ | ⟨more, three, form⟩ | ⟨more, form⟩
  all_goals rw [form, fromUtf8Lossy.go.eq_def]
  · have first := ofNat_toNat_of_lt (show v < 256 by omega)
    simp only [List.cons_append, List.nil_append, width_one one, first, back]
  · have whole : (v / 64 % 32 + 192) % 32 * 64 + v % 64 = v := by omega
    simp only [List.cons_append, List.nil_append, width_two more two, isContinuation_continuation,
      lowBits_continuation, firstOfTwo_toNat, whole, back, if_true]
  · have whole : ((v / 4096 % 16 + 224) % 16 * 64 + v / 64 % 64) * 64 + v % 64 = v := by omega
    simp only [List.cons_append, List.nil_append, width_three, second_three more (by omega) three,
      isContinuation_continuation, lowBits_continuation, firstOfThree_toNat, whole, back, if_true]
  · have whole : (((v / 262144 % 8 + 240) % 8 * 64 + v / 4096 % 64) * 64 + v / 64 % 64) * 64 + v % 64 = v := by omega
    simp only [List.cons_append, List.nil_append, width_four (show v < 0x110000 by omega),
      second_four more (by omega), isContinuation_continuation, lowBits_continuation, firstOfFour_toNat, whole, back,
      if_true]

@[simp] theorem lossy_nil (n : Nat) : fromUtf8Lossy.go n [] = [] := by
  cases n <;> rfl

/-- Of a character without its last byte, nothing is read but the replacement. -/
theorem lossy_cut (n : Nat) (c : Char) :
    ∀ d ∈ fromUtf8Lossy.go n (String.utf8EncodeChar c).dropLast, d = replacement := by
  have valid : c.val.toNat < 0xD800 ∨ 0xDFFF < c.val.toNat ∧ c.val.toNat < 0x110000 := c.valid
  have forms := utf8EncodeChar_cases c
  generalize c.val.toNat = v at valid forms
  rcases n with _ | n
  · intro d member
    cases member
  rcases forms with ⟨one, form⟩ | ⟨more, two, form⟩ | ⟨more, three, form⟩ | ⟨more, form⟩
  all_goals rw [form, fromUtf8Lossy.go.eq_def]
  · simp
  · simp [width_two more two]
  · simp [width_three, second_three more (show v < 0xD800 ∨ 0xDFFF < v by omega) three]
  · simp [width_four (show v < 0x110000 by omega), second_four more (show v < 0x110000 by omega),
      isContinuation_continuation]

theorem utf8EncodeChar_ne_nil (c : Char) : String.utf8EncodeChar c ≠ [] := by
  intro none
  have length := congrArg List.length none
  rw [String.length_utf8EncodeChar, List.length_nil] at length
  have positive := c.utf8Size_pos
  omega

theorem length_le_asBytes (s : Str) : s.length ≤ (asBytes s).length := by
  induction s with
  | nil => exact Nat.le_refl 0
  | cons c s ih =>
    have first := List.length_pos_iff.mpr (utf8EncodeChar_ne_nil c)
    rw [asBytes_cons, List.length_append, List.length_cons]
    omega

theorem lossy_append (s : Str) (rest : Bytes) {n : Nat} (enough : s.length ≤ n) :
    fromUtf8Lossy.go n (asBytes s ++ rest) = s ++ fromUtf8Lossy.go (n - s.length) rest := by
  induction s generalizing n with
  | nil => rfl
  | cons c s ih =>
    obtain ⟨n, rfl⟩ : ∃ m, n = m + 1 := ⟨n - 1, by rw [List.length_cons] at enough; omega⟩
    rw [asBytes_cons, List.append_assoc, lossy_char, ih (by rw [List.length_cons] at enough; omega), List.length_cons,
      Nat.add_sub_add_right, List.cons_append]

@[simp] theorem fromUtf8Lossy_asBytes (s : Str) : fromUtf8Lossy (asBytes s) = s := by
  have read := lossy_append s [] (length_le_asBytes s)
  rwa [List.append_nil, lossy_nil, List.append_nil] at read

/-! ### Text without its last byte -/

theorem lossy_dropLast (s : Str) (c : Char) :
    ∃ n, fromUtf8Lossy (asBytes (s ++ [c])).dropLast =
      s ++ fromUtf8Lossy.go n (String.utf8EncodeChar c).dropLast := by
  have encoded : asBytes (s ++ [c]) = asBytes s ++ String.utf8EncodeChar c := by
    rw [asBytes_append, asBytes_cons]
    exact congrArg _ (List.append_nil _)
  have cut : (asBytes (s ++ [c])).dropLast = asBytes s ++ (String.utf8EncodeChar c).dropLast := by
    rw [encoded, List.dropLast_append_of_ne_nil (utf8EncodeChar_ne_nil c)]
  rw [cut]
  refine ⟨_, lossy_append s _ ?_⟩
  rw [List.length_append]
  exact Nat.le_add_right_of_le (length_le_asBytes s)

theorem lossy_dropLast_ascii (s : Str) {c : Char} (ascii : c.toNat < 128) :
    fromUtf8Lossy (asBytes (s ++ [c])).dropLast = s := by
  obtain ⟨n, read⟩ := lossy_dropLast s c
  rw [read, utf8EncodeChar_ascii ascii]
  simp

theorem count_lossy_dropLast {d : Char} (other : d ≠ replacement) (s : Str) :
    (fromUtf8Lossy (asBytes s).dropLast).count d ≤ s.count d := by
  rcases List.eq_nil_or_concat s with rfl | ⟨front, c, rfl⟩
  · exact Nat.le_refl 0
  · obtain ⟨n, read⟩ := lossy_dropLast front c
    have none : (fromUtf8Lossy.go n (String.utf8EncodeChar c).dropLast).count d = 0 :=
      List.count_eq_zero_of_not_mem fun member => other (lossy_cut n c d member)
    rw [List.concat_eq_append, read, List.count_append, none, List.count_append]
    omega

end QuestRouter.Text
