import QuestRouter.Text.Lossy

/-!
# Slices of encoded text

A `str` is bytes that encode a text. Its offsets count bytes, and a slice that begins or ends inside a character
is a panic. Searching for a text, and folding the case of ASCII letters, keep to the places between characters.
-/

namespace QuestRouter.Text

/-- `str::is_char_boundary`. -/
def isCharBoundary (bytes : Bytes) (index : Nat) : Bool :=
  match index, bytes[index]? with
  | 0, _ => true
  | _, none => index == bytes.length
  | _, some b => !isContinuation b

theorem isContinuation_iff (b : UInt8) : isContinuation b = true ↔ 128 ≤ b.toNat ∧ b.toNat < 192 := by
  have all : ∀ k : Fin 256, isContinuation (UInt8.ofNat k.val) = decide (128 ≤ k.val ∧ k.val < 192) := by
    decide +kernel
  have here := all ⟨b.toNat, b.toNat_lt⟩
  rw [UInt8.ofNat_toNat] at here
  rw [here, decide_eq_true_iff]

/-- Only the first byte of a character is no continuation. -/
theorem utf8EncodeChar_shape (c : Char) :
    ∃ first more, String.utf8EncodeChar c = first :: more ∧ isContinuation first = false ∧
      ∀ b ∈ more, isContinuation b = true := by
  have starts : ∀ b : UInt8, b.toNat < 128 ∨ 192 ≤ b.toNat → isContinuation b = false := by
    intro b outside
    rw [Bool.eq_false_iff, Ne, isContinuation_iff]
    omega
  rcases utf8EncodeChar_cases c with ⟨one, form⟩ | ⟨_, _, form⟩ | ⟨_, _, form⟩ | ⟨_, form⟩
  · refine ⟨_, _, form, starts _ (.inl ?_), List.forall_mem_nil _⟩
    rw [ofNat_toNat_of_lt (by omega)]
    omega
  · refine ⟨_, _, form, starts _ (.inr ?_), ?_⟩
    · rw [firstOfTwo_toNat]
      omega
    · simp [isContinuation_continuation]
  · refine ⟨_, _, form, starts _ (.inr ?_), ?_⟩
    · rw [firstOfThree_toNat]
      omega
    · simp [isContinuation_continuation]
  · refine ⟨_, _, form, starts _ (.inr ?_), ?_⟩
    · rw [firstOfFour_toNat]
      omega
    · simp [isContinuation_continuation]

theorem boundary_behind (c : Char) (s : Str) (index : Nat) :
    isCharBoundary (String.utf8EncodeChar c ++ asBytes s) ((String.utf8EncodeChar c).length + index) =
      isCharBoundary (asBytes s) index := by
  obtain ⟨first, more, form, _, _⟩ := utf8EncodeChar_shape c
  have positive : (String.utf8EncodeChar c).length + index = (more.length + index) + 1 := by
    rw [form, List.length_cons]
    omega
  have there : (String.utf8EncodeChar c ++ asBytes s)[more.length + index + 1]? = (asBytes s)[index]? := by
    rw [← positive, List.getElem?_append_right (by omega), Nat.add_sub_cancel_left]
  rw [positive, isCharBoundary.eq_def, isCharBoundary.eq_def, there]
  cases index with
  | zero =>
    cases s with
    | nil => simp [asBytes, form]
    | cons d s =>
      obtain ⟨next, _, shape, starts, _⟩ := utf8EncodeChar_shape d
      simp [asBytes_cons, shape, starts]
  | succ index =>
    cases (asBytes s)[index + 1]? with
    | none =>
      simp only [List.length_append, form, List.length_cons]
      rw [Bool.eq_iff_iff, beq_iff_eq, beq_iff_eq]
      omega
    | some b => rfl

theorem boundary_inside {c : Char} {index : Nat} (positive : 0 < index)
    (inside : index < (String.utf8EncodeChar c).length) (rest : Bytes) :
    isCharBoundary (String.utf8EncodeChar c ++ rest) index = false := by
  obtain ⟨first, more, form, _, continues⟩ := utf8EncodeChar_shape c
  obtain ⟨place, rfl⟩ : ∃ place, index = place + 1 := ⟨index - 1, by omega⟩
  rw [form, List.length_cons] at inside
  have there : (first :: more ++ rest)[place + 1]? = some (more.get ⟨place, by omega⟩) := by
    rw [List.cons_append, List.getElem?_cons_succ, List.getElem?_append_left (by omega)]
    exact List.getElem?_eq_getElem _
  rw [form, isCharBoundary.eq_def, there]
  simp [continues]

/-- The boundaries of an encoded text are where it can be cut as a text. -/
theorem isCharBoundary_iff {s : Str} {index : Nat} :
    isCharBoundary (asBytes s) index = true ↔ ∃ before after, s = before ++ after ∧ index = (asBytes before).length := by
  induction s generalizing index with
  | nil =>
    cases index with
    | zero => simp [isCharBoundary, asBytes]
    | succ index =>
      simp only [isCharBoundary, asBytes, List.flatMap_nil, List.getElem?_nil, List.length_nil]
      simp
  | cons c s ih =>
    rw [asBytes_cons]
    constructor
    · intro boundary
      rcases Nat.eq_zero_or_pos index with rfl | positive
      · exact ⟨[], c :: s, rfl, rfl⟩
      by_cases inside : index < (String.utf8EncodeChar c).length
      · rw [boundary_inside positive inside] at boundary
        cases boundary
      · obtain ⟨behind, rfl⟩ := Nat.exists_eq_add_of_le (Nat.le_of_not_lt inside)
        rw [boundary_behind] at boundary
        obtain ⟨before, after, rfl, rfl⟩ := ih.mp boundary
        refine ⟨c :: before, after, rfl, ?_⟩
        rw [asBytes_cons, List.length_append]
    · rintro ⟨before, after, same, rfl⟩
      cases before with
      | nil => rfl
      | cons d before =>
        obtain ⟨rfl, rfl⟩ := List.cons.inj same
        rw [asBytes_cons, List.length_append, boundary_behind]
        exact ih.mpr ⟨before, after, rfl, rfl⟩

theorem drop_asBytes (before after : Str) : (asBytes (before ++ after)).drop (asBytes before).length = asBytes after := by
  rw [asBytes_append, List.drop_left]

/-! ### The string slice -/

/-- Bytes that encode a text. -/
structure Utf8 where
  bytes : Bytes
  valid : ∃ s, asBytes s = bytes

/-- What the indexing of a string slice may end in. -/
inductive Panic where
  | notCharBoundary (index : Nat)
  deriving DecidableEq, Repr

namespace Utf8

def ofStr (s : Str) : Utf8 := ⟨asBytes s, s, rfl⟩

def chars (t : Utf8) : Str := (fromUtf8 t.bytes).getD []

def len (t : Utf8) : Nat := t.bytes.length

@[simp] theorem chars_ofStr (s : Str) : (ofStr s).chars = s := by
  rw [chars, ofStr, fromUtf8_asBytes]
  rfl

@[simp] theorem ofStr_chars (t : Utf8) : ofStr t.chars = t := by
  obtain ⟨bytes, s, rfl⟩ := t
  exact congrArg ofStr (chars_ofStr s)

/-- `&t[index..]`. -/
def sliceFrom (t : Utf8) (index : Nat) : Except Panic Utf8 :=
  if boundary : isCharBoundary t.bytes index = true then
    .ok ⟨t.bytes.drop index, by
      obtain ⟨bytes, s, rfl⟩ := t
      obtain ⟨before, after, rfl, rfl⟩ := isCharBoundary_iff.mp boundary
      exact ⟨after, (drop_asBytes before after).symm⟩⟩
  else .error (.notCharBoundary index)

/-- `&t[..index]`. -/
def sliceTo (t : Utf8) (index : Nat) : Except Panic Utf8 :=
  if boundary : isCharBoundary t.bytes index = true then
    .ok ⟨t.bytes.take index, by
      obtain ⟨bytes, s, rfl⟩ := t
      obtain ⟨before, after, rfl, rfl⟩ := isCharBoundary_iff.mp boundary
      exact ⟨before, (take_asBytes before after).symm⟩⟩
  else .error (.notCharBoundary index)

theorem ofStr_bytes {t : Utf8} {s : Str} (same : t.bytes = asBytes s) : t = ofStr s := by
  obtain ⟨bytes, valid⟩ := t
  subst same
  rfl

theorem boundary_append (before after : Str) :
    isCharBoundary (ofStr (before ++ after)).bytes (asBytes before).length = true :=
  isCharBoundary_iff.mpr ⟨before, after, rfl, rfl⟩

theorem sliceFrom_append (before after : Str) :
    (ofStr (before ++ after)).sliceFrom (asBytes before).length = .ok (ofStr after) := by
  rw [sliceFrom, dif_pos (boundary_append before after)]
  exact congrArg Except.ok (ofStr_bytes (drop_asBytes before after))

example : (ofStr "é".toList).sliceFrom 1 = .error (.notCharBoundary 1) := by rfl

theorem sliceTo_append (before after : Str) :
    (ofStr (before ++ after)).sliceTo (asBytes before).length = .ok (ofStr before) := by
  rw [sliceTo, dif_pos (boundary_append before after)]
  exact congrArg Except.ok (ofStr_bytes (take_asBytes before after))

def append (t u : Utf8) : Utf8 :=
  ⟨t.bytes ++ u.bytes, by
    obtain ⟨_, s, rfl⟩ := t
    obtain ⟨_, r, rfl⟩ := u
    exact ⟨s ++ r, asBytes_append s r⟩⟩

theorem append_ofStr (s t : Str) : (ofStr s).append (ofStr t) = ofStr (s ++ t) :=
  ofStr_bytes (asBytes_append s t).symm

end Utf8

/-! ### Searching -/

def findBytes (pat : Bytes) : Bytes → Option Nat
  | [] => if pat.isPrefixOf [] then some 0 else none
  | b :: rest => if pat.isPrefixOf (b :: rest) then some 0 else (findBytes pat rest).map (· + 1)

theorem asBytes_prefix {pat s : Str} : asBytes pat <+: asBytes s ↔ pat <+: s := by
  constructor
  · rintro ⟨rest, same⟩
    have enough : pat.length ≤ (asBytes s).length := by
      have short := length_le_asBytes pat
      rw [← same, List.length_append]
      omega
    have read := lossy_append pat rest enough
    rw [same] at read
    exact ⟨_, read.symm.trans (fromUtf8Lossy_asBytes s)⟩
  · rintro ⟨rest, rfl⟩
    exact ⟨asBytes rest, (asBytes_append pat rest).symm⟩

/-- No text begins inside a character. -/
theorem findBytes_skip {pat : Str} (some : pat ≠ []) {more : Bytes} (continues : ∀ b ∈ more, isContinuation b = true)
    (rest : Bytes) : findBytes (asBytes pat) (more ++ rest) = (findBytes (asBytes pat) rest).map (· + more.length) := by
  obtain ⟨c, pat, rfl⟩ := List.exists_cons_of_ne_nil some
  obtain ⟨first, tail, form, starts, _⟩ := utf8EncodeChar_shape c
  induction more with
  | nil => simp
  | cons b more ih =>
    obtain ⟨here, later⟩ := List.forall_mem_cons.mp continues
    have other : first ≠ b := by
      rintro rfl
      rw [starts] at here
      cases here
    have missed : (asBytes (c :: pat)).isPrefixOf (b :: (more ++ rest)) = false := by
      rw [asBytes_cons, form, List.cons_append, List.isPrefixOf_cons_cons, beq_false_of_ne other, Bool.false_and]
    rw [List.cons_append, findBytes, missed, if_neg Bool.false_ne_true, ih later, Option.map_map]
    rfl

theorem findBytes_asBytes (pat s : Str) :
    findBytes (asBytes pat) (asBytes s) = (find pat s).map fun index => (asBytes (s.take index)).length := by
  induction s with
  | nil =>
    cases pat with
    | nil => rfl
    | cons c pat =>
      obtain ⟨first, tail, form, _, _⟩ := utf8EncodeChar_shape c
      simp [findBytes, find, asBytes, form]
  | cons c s ih =>
    have starts : (asBytes pat).isPrefixOf (asBytes (c :: s)) = pat.isPrefixOf (c :: s) := by
      rw [Bool.eq_iff_iff, List.isPrefixOf_iff_prefix, List.isPrefixOf_iff_prefix, asBytes_prefix]
    obtain ⟨first, more, form, _, continues⟩ := utf8EncodeChar_shape c
    have shape : asBytes (c :: s) = first :: (more ++ asBytes s) := by
      rw [asBytes_cons, form, List.cons_append]
    rw [shape] at starts
    rw [shape, findBytes, starts, find]
    split
    · rfl
    · rename_i missed
      have some : pat ≠ [] := by
        rintro rfl
        exact missed rfl
      rw [findBytes_skip some continues, ih, Option.map_map, Option.map_map, Option.map_map]
      congr 1
      funext index
      show (asBytes (s.take index)).length + more.length + 1 = (asBytes (c :: s.take index)).length
      rw [asBytes_cons, List.length_append, form, List.length_cons]
      omega

/-! ### Folding the case of ASCII letters -/

/-- A function of characters that is one of bytes: it changes only ASCII characters, into ASCII characters. -/
structure AsciiFold where
  byte : UInt8 → UInt8
  char : Char → Char
  ascii : ∀ c, c.toNat < 128 → String.utf8EncodeChar (char c) = [byte (asciiByte c)]
  high : ∀ c, 128 ≤ c.toNat → char c = c
  highByte : ∀ b, 128 ≤ b.toNat → byte b = b

theorem AsciiFold.map_asBytes (fold : AsciiFold) (s : Str) :
    (asBytes s).map fold.byte = asBytes (s.map fold.char) := by
  induction s with
  | nil => rfl
  | cons c s ih =>
    rw [asBytes_cons, List.map_append, ih, List.map_cons, asBytes_cons]
    congr 1
    by_cases low : c.toNat < 128
    · rw [fold.ascii c low, utf8EncodeChar_ascii low, List.map_singleton]
    · have high : 128 ≤ c.toNat := by omega
      rw [fold.high c high]
      conv_rhs => rw [← List.map_id (String.utf8EncodeChar c)]
      exact List.map_congr_left fun b member => fold.highByte b (utf8EncodeChar_high high b member)

theorem AsciiFold.length_asBytes (fold : AsciiFold) (s : Str) :
    (asBytes (s.map fold.char)).length = (asBytes s).length := by
  rw [← fold.map_asBytes, List.length_map]

/-- `u8::to_ascii_uppercase`. -/
def asciiUpper (b : UInt8) : UInt8 := if 97 ≤ b && b ≤ 122 then b - 32 else b

/-- `u8::to_ascii_lowercase`. -/
def asciiLower (b : UInt8) : UInt8 := if 65 ≤ b && b ≤ 90 then b + 32 else b

theorem forall_ascii {p : Char → Prop} (all : ∀ n : Fin 128, p (Char.ofNat n.val)) : ∀ c, c.toNat < 128 → p c := by
  intro c low
  have here := all ⟨c.toNat, low⟩
  rwa [Char.ofNat_toNat] at here

def uppercase : AsciiFold where
  byte := asciiUpper
  char := Char.toUpper
  ascii := forall_ascii (by decide +kernel)
  high c high := dif_neg (by
    have value : c.val.toNat = c.toNat := rfl
    simp only [UInt32.le_iff_toNat_le, value, Char.reduceVal, UInt32.reduceToNat]
    omega)
  highByte b high := if_neg (by
    simp only [UInt8.le_iff_toNat_le, Bool.and_eq_true, decide_eq_true_eq, UInt8.reduceToNat]
    omega)

def lowercase : AsciiFold where
  byte := asciiLower
  char := Char.toLower
  ascii := forall_ascii (by decide +kernel)
  high c high := dif_neg (by
    have value : c.val.toNat = c.toNat := rfl
    simp only [ge_iff_le, UInt32.le_iff_toNat_le, value, Char.reduceVal, UInt32.reduceToNat]
    omega)
  highByte b high := if_neg (by
    simp only [UInt8.le_iff_toNat_le, Bool.and_eq_true, decide_eq_true_eq, UInt8.reduceToNat]
    omega)

namespace Utf8

def fold (f : AsciiFold) (t : Utf8) : Utf8 :=
  ⟨t.bytes.map f.byte, by
    obtain ⟨_, s, rfl⟩ := t
    exact ⟨s.map f.char, (f.map_asBytes s).symm⟩⟩

theorem fold_ofStr (f : AsciiFold) (s : Str) : (ofStr s).fold f = ofStr (s.map f.char) :=
  ofStr_bytes (f.map_asBytes s)

/-- `str::find` with a text. -/
def find (t pat : Utf8) : Option Nat := findBytes pat.bytes t.bytes

theorem find_ofStr (s pat : Str) :
    (ofStr s).find (ofStr pat) = (Text.find pat s).map fun index => (asBytes (s.take index)).length :=
  findBytes_asBytes pat s

/-- `str::find` with a predicate. -/
def findChar (t : Utf8) (p : Char → Bool) : Option Nat :=
  (t.chars.findIdx? p).map fun index => (asBytes (t.chars.take index)).length

def startsWith (t : Utf8) (c : Char) : Bool := t.chars.head? == some c

def trimStart (t : Utf8) : Utf8 := ofStr (Text.trimStart t.chars)

/-- The text behind what was found in the folded copy. -/
theorem sliceFrom_find (f : AsciiFold) {s pat : Str} {index : Nat} (found : Text.find pat (s.map f.char) = some index) :
    (ofStr s).sliceFrom ((asBytes ((s.map f.char).take index)).length + (asBytes pat).length) =
      .ok (ofStr (s.drop (index + pat.length))) := by
  obtain ⟨rest, there⟩ := find_at found
  have through : (s.map f.char).take (index + pat.length) = (s.map f.char).take index ++ pat := by
    rw [List.take_add, there, List.take_left]
  have place : (asBytes ((s.map f.char).take index)).length + (asBytes pat).length =
      (asBytes (s.take (index + pat.length))).length := by
    rw [← List.length_append, ← asBytes_append, ← through, ← List.map_take, f.length_asBytes]
  have cut := sliceFrom_append (s.take (index + pat.length)) (s.drop (index + pat.length))
  rwa [List.take_append_drop, ← place] at cut

theorem sliceTo_findChar (s : Str) (p : Char → Bool) :
    (ofStr s).sliceTo (((ofStr s).findChar p).getD (ofStr s).len) = .ok (ofStr (s.takeWhile fun c => !p c)) := by
  have short : s.takeWhile (fun c => !p c) = s.take (s.findIdx p) := by
    rw [List.takeWhile_eq_take_findIdx_not]
    simp
  have place : ((ofStr s).findChar p).getD (ofStr s).len = (asBytes (s.take (s.findIdx p))).length := by
    rw [findChar, chars_ofStr]
    cases first : s.findIdx? p with
    | none =>
      rw [List.findIdx?_eq_none_iff_findIdx_eq.mp first, List.take_length]
      rfl
    | some index =>
      rw [(List.findIdx?_eq_some_iff_findIdx_eq.mp first).2]
      rfl
  have cut := sliceTo_append (s.take (s.findIdx p)) (s.drop (s.findIdx p))
  rwa [List.take_append_drop, ← place, ← short] at cut

theorem startsWith_cons (c : Char) (s : Str) : (ofStr (c :: s)).startsWith c = true := by
  rw [startsWith, chars_ofStr, List.head?_cons, beq_self_eq_true]

theorem sliceFrom_cons {c : Char} (ascii : c.toNat < 128) (s : Str) :
    (ofStr (c :: s)).sliceFrom 1 = .ok (ofStr s) := by
  have one : (asBytes [c]).length = 1 := by
    rw [asBytes_cons, utf8EncodeChar_ascii ascii]
    rfl
  have cut := sliceFrom_append [c] s
  rwa [one] at cut

theorem startsWith_cases (c : Char) (s : Str) :
    (∃ rest, s = c :: rest) ∨ (ofStr s).startsWith c = false ∧ ∀ rest, s ≠ c :: rest := by
  rw [startsWith, chars_ofStr]
  cases s with
  | nil => exact .inr ⟨rfl, fun _ same => nomatch same⟩
  | cons d s =>
    by_cases same : d = c
    · exact .inl ⟨s, congrArg (· :: s) same⟩
    · exact .inr ⟨by simp [same], fun rest equal => same (List.cons.inj equal).1⟩

end Utf8

end QuestRouter.Text
