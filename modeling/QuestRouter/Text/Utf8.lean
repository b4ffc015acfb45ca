import QuestRouter.Text.Str

/-!
# Bytes and UTF-8

Protocol lines are bytes. Text is encoded by `asBytes` and decoded by `fromUtf8`, or by
`fromUtf8Lossy`, which puts U+FFFD in place of each invalid sequence. An ASCII character is one
byte, and no other character's encoding contains that byte, so a scan for an ASCII delimiter
may be done on characters.
-/

namespace QuestRouter.Text

abbrev Bytes := List UInt8

def asBytes (s : Str) : Bytes := s.flatMap String.utf8EncodeChar

def fromUtf8 (b : Bytes) : Option Str := b.toByteArray.utf8Decode?.map Array.toList

/-! ### Lossy decoding -/

/-- Length of the sequence that a first byte announces, 0 if it cannot start one. -/
def utf8CharWidth (b : UInt8) : Nat :=
  if b < 0x80 then 1 else if b < 0xC2 then 0 else if b < 0xE0 then 2
  else if b < 0xF0 then 3 else if b < 0xF5 then 4 else 0

def isContinuation (b : UInt8) : Bool := b &&& 0xC0 == 0x80

/-- Second bytes that keep a three or four byte sequence valid. -/
def secondByteOk (first second : UInt8) : Bool :=
  if first == 0xE0 then 0xA0 ≤ second && second ≤ 0xBF
  else if first == 0xED then 0x80 ≤ second && second ≤ 0x9F
  else if first == 0xF0 then 0x90 ≤ second && second ≤ 0xBF
  else if first == 0xF4 then 0x80 ≤ second && second ≤ 0x8F
  else isContinuation second

def replacement : Char := Char.ofNat 0xFFFD

def lowBits (b : UInt8) : Nat := b.toNat % 64

def fromUtf8Lossy (bytes : Bytes) : Str := go bytes.length bytes
where
  /-- Each step reads one character or one maximal invalid sequence. -/
  go : Nat → Bytes → Str
  | 0, _ => []
  | _ + 1, [] => []
  | n + 1, b :: rest =>
    match utf8CharWidth b, rest with
    | 1, _ => Char.ofNat b.toNat :: go n rest
    | 2, b1 :: rest1 =>
      if isContinuation b1 then Char.ofNat (b.toNat % 32 * 64 + lowBits b1) :: go n rest1
      else replacement :: go n rest
    | 3, b1 :: rest1 =>
      if secondByteOk b b1 then
        match rest1 with
        | b2 :: rest2 =>
          if isContinuation b2 then
            Char.ofNat ((b.toNat % 16 * 64 + lowBits b1) * 64 + lowBits b2) :: go n rest2
          else replacement :: go n rest1
        | [] => [replacement]
      else replacement :: go n rest
    | 4, b1 :: rest1 =>
      if secondByteOk b b1 then
        match rest1 with
        | b2 :: rest2 =>
          if isContinuation b2 then
            match rest2 with
            | b3 :: rest3 =>
              if isContinuation b3 then
                Char.ofNat (((b.toNat % 8 * 64 + lowBits b1) * 64 + lowBits b2) * 64 + lowBits b3) ::
                  go n rest3
              else replacement :: go n rest2
            | [] => [replacement]
          else replacement :: go n rest1
        | [] => [replacement]
      else replacement :: go n rest
    | _, _ => replacement :: go n rest

/-! ### Encoding -/

@[simp] theorem asBytes_append (s t : Str) : asBytes (s ++ t) = asBytes s ++ asBytes t := by
  simp [asBytes]

theorem asBytes_cons (c : Char) (s : Str) :
    asBytes (c :: s) = String.utf8EncodeChar c ++ asBytes s := rfl

theorem take_asBytes (before after : Str) : (asBytes (before ++ after)).take (asBytes before).length = asBytes before := by
  rw [asBytes_append, List.take_left]

@[simp] theorem fromUtf8_asBytes (s : Str) : fromUtf8 (asBytes s) = some s := by
  have encoded : (asBytes s).toByteArray = s.utf8Encode := rfl
  simp [fromUtf8, encoded]

theorem asBytes_injective : Function.Injective asBytes := by
  intro s t same
  have decoded := congrArg fromUtf8 same
  simpa using decoded

def asciiByte (c : Char) : UInt8 := UInt8.ofNat c.toNat

theorem utf8EncodeChar_ascii {c : Char} (ascii : c.toNat < 128) :
    String.utf8EncodeChar c = [asciiByte c] := by
  have small : c.val.toNat ≤ 127 := by change c.toNat ≤ 127; omega
  rw [String.utf8EncodeChar, if_pos small]
  rfl

theorem utf8EncodeChar_high {c : Char} (high : 128 ≤ c.toNat) :
    ∀ b ∈ String.utf8EncodeChar c, 128 ≤ b.toNat := by
  have large : ¬ c.val.toNat ≤ 127 := by change ¬ c.toNat ≤ 127; omega
  simp only [String.utf8EncodeChar, large, if_false]
  split
  · simp only [List.forall_mem_cons, UInt8.toNat_ofNat', List.not_mem_nil, false_implies,
      implies_true, and_true]
    omega
  · split <;>
    · simp only [List.forall_mem_cons, UInt8.toNat_ofNat', List.not_mem_nil, false_implies,
        implies_true, and_true]
      omega

theorem asciiByte_toNat {c : Char} (ascii : c.toNat < 128) : (asciiByte c).toNat = c.toNat := by
  rw [asciiByte, UInt8.toNat_ofNat']
  omega

theorem asciiByte_mem_encode {c d : Char} (ascii : c.toNat < 128) :
    asciiByte c ∈ String.utf8EncodeChar d ↔ d = c := by
  constructor
  · intro member
    by_cases high : 128 ≤ d.toNat
    · have := utf8EncodeChar_high high _ member
      rw [asciiByte_toNat ascii] at this
      omega
    · have low : d.toNat < 128 := by omega
      rw [utf8EncodeChar_ascii low, List.mem_singleton] at member
      have same := congrArg UInt8.toNat member
      rw [asciiByte_toNat ascii, asciiByte_toNat low] at same
      exact (Char.toNat_inj.mp same).symm
  · rintro rfl
    simp [utf8EncodeChar_ascii ascii]

theorem asciiByte_mem_asBytes {c : Char} (ascii : c.toNat < 128) {s : Str} :
    asciiByte c ∈ asBytes s ↔ c ∈ s := by
  simp only [asBytes, List.mem_flatMap, asciiByte_mem_encode ascii]
  constructor
  · rintro ⟨d, member, rfl⟩
    exact member
  · exact fun member => ⟨c, member, rfl⟩

/-! ### Scanning for a delimiter -/

def memchr (b : UInt8) (bytes : Bytes) : Option Nat := bytes.findIdx? (· == b)

theorem memchr_eq_none {b : UInt8} {bytes : Bytes} : memchr b bytes = none ↔ b ∉ bytes := by
  simp only [memchr, List.findIdx?_eq_none_iff, beq_eq_false_iff_ne]
  exact ⟨fun h member => h b member rfl, fun h x member same => h (same ▸ member)⟩

theorem memchr_append {b : UInt8} {before : Bytes} (fresh : b ∉ before) (after : Bytes) :
    memchr b (before ++ b :: after) = some before.length := by
  have missed : before.findIdx? (· == b) = none := memchr_eq_none.mpr fresh
  simp [memchr, List.findIdx?_append, missed, List.findIdx?_cons]

theorem memchr_some {b : UInt8} {bytes : Bytes} {n : Nat} (h : memchr b bytes = some n) :
    b ∉ bytes.take n ∧ bytes.take (n + 1) = bytes.take n ++ [b] ∧ n < bytes.length := by
  obtain ⟨inside, here, before⟩ := List.findIdx?_eq_some_iff_getElem.mp h
  refine ⟨fun member => ?_, ?_, inside⟩
  · obtain ⟨i, bound, same⟩ := List.mem_iff_getElem.mp member
    rw [List.length_take] at bound
    rw [List.getElem_take] at same
    exact before i (by omega) (by simpa using same)
  · have same : bytes[n] = b := by simpa using here
    rw [List.take_succ_eq_append_getElem inside, same]

theorem splitOnP_append_of_not {α : Type*} {p : α → Bool} {xs : List α} (absent : ∀ x ∈ xs, p x = false)
    (ys : List α) : (xs ++ ys).splitOnP p = (ys.splitOnP p).modifyHead (xs ++ ·) := by
  induction xs with
  | nil =>
    simp only [List.nil_append]
    cases ys.splitOnP p <;> rfl
  | cons x xs ih =>
    rw [List.cons_append, List.splitOnP_cons_eq_if_modifyHead, if_neg (by simp [absent x])]
    rw [ih fun y member => absent y (List.mem_cons_of_mem _ member)]
    cases ys.splitOnP p <;> rfl

/-- Splitting encoded text at an ASCII byte is splitting the text at the character. -/
theorem splitOn_asBytes {c : Char} (ascii : c.toNat < 128) (s : Str) :
    (asBytes s).splitOn (asciiByte c) = (s.splitOn c).map asBytes := by
  simp only [List.splitOn]
  induction s with
  | nil => rfl
  | cons d s ih =>
    rw [asBytes_cons, List.splitOnP_cons_eq_if_modifyHead]
    by_cases same : d = c
    · subst same
      rw [if_pos (by simp), utf8EncodeChar_ascii ascii, List.singleton_append, List.splitOnP_cons_eq_if_modifyHead,
        if_pos (by simp), ih]
      rfl
    · have absent : ∀ b ∈ String.utf8EncodeChar d, (b == asciiByte c) = false := by
        intro b member
        rw [beq_eq_false_iff_ne]
        rintro rfl
        exact same ((asciiByte_mem_encode ascii).mp member)
      rw [if_neg (by simp [same]), splitOnP_append_of_not absent, ih]
      cases s.splitOnP (· == c) <;> rfl

end QuestRouter.Text
