import QuestRouter.Ilp.KeyScan
import QuestRouter.Stream.Row
import QuestRouter.Text.Lossy

/-!
# Rows of text

What the row parser makes of a line that is text: it may be read on characters.
-/

namespace QuestRouter.Stream
open Text Routing Ilp

/-- What follows the first `c`, nothing if there is none. -/
def past (c : Char) (s : Str) : Str := s.drop ((upTo c s).length + 1)

theorem past_append {c : Char} {s : Str} (absent : c ∉ s) (t : Str) : past c (s ++ c :: t) = t := by
  rw [past, upTo_append absent, List.drop_append]
  simp

theorem not_mem_upTo (c : Char) (s : Str) : c ∉ upTo c s := fun member => by simpa using List.mem_takeWhile_imp member

theorem upTo_past {c : Char} {s : Str} (present : c ∈ s) : upTo c s ++ c :: past c s = s := by
  obtain ⟨before, rest, rfl, absent⟩ := List.eq_append_cons_of_mem present
  rw [upTo_append absent, past_append absent]

theorem splitAtFirst_asBytes {c : Char} (ascii : c.toNat < 128) (s : Str) :
    splitAtFirst (asBytes s) (asciiByte c) =
      if c ∈ s then some (asBytes (upTo c s), asBytes (past c s)) else none := by
  by_cases present : c ∈ s
  · obtain ⟨before, rest, rfl, absent⟩ := List.eq_append_cons_of_mem present
    rw [if_pos present, splitAtFirst, memchr_asBytes ascii absent, Option.map_some, take_asBytes, drop_asBytes ascii,
      upTo_append absent, past_append absent]
  · rw [if_neg present, splitAtFirst, memchr_asBytes_none ascii present, Option.map_none]

/-! ### Tags -/

def tagOf (piece : Str) : Option (Str × Str) :=
  if '=' ∈ piece then some (upTo '=' piece, past '=' piece) else none

theorem parseTag_asBytes (piece : Str) : parseTag (asBytes piece) = tagOf piece := by
  rw [parseTag, equals, splitAtFirst_asBytes (by decide), tagOf]
  split
  · simp only [Option.map_some, fromUtf8Lossy_asBytes]
  · rfl

theorem asBytes_isEmpty (s : Str) : (asBytes s).isEmpty = s.isEmpty := by
  cases s with
  | nil => rfl
  | cons c s =>
    have nonempty : asBytes (c :: s) ≠ [] := List.append_ne_nil_of_left_ne_nil (utf8EncodeChar_ne_nil c) _
    rw [List.isEmpty_eq_false_iff.mpr nonempty]
    rfl

/-- An empty part gives nothing, so an empty section may be split like any other. -/
theorem filterMap_commaParts {α : Type} {f : Bytes → Option α} (empty : f [] = none) (s : Str) :
    (commaParts (asBytes s)).filterMap f = (s.splitOn ',').filterMap fun piece => f (asBytes piece) := by
  rw [commaParts, asBytes_isEmpty]
  split
  · rename_i none
    rw [List.isEmpty_iff.mp none, List.splitOn_nil]
    exact (List.filterMap_cons_none empty).symm
  · rw [comma, splitOn_asBytes (by decide), List.filterMap_map]
    rfl

/-! ### Fields -/

section Fields
variable {F : Type} (parseF64 : Str → Option F)

def valueOf (raw : Str) : Option (IlpField F) := parseFieldValue parseF64 (asBytes raw)

def fieldOf (piece : Str) : Option (Str × IlpField F) :=
  if '=' ∈ piece then (valueOf parseF64 (past '=' piece)).map fun value => (upTo '=' piece, value) else none

theorem parseField_asBytes (piece : Str) : parseField parseF64 (asBytes piece) = fieldOf parseF64 piece := by
  rw [parseField, equals, splitAtFirst_asBytes (by decide), fieldOf]
  split
  · simp only [bind, Option.bind, pure, fromUtf8Lossy_asBytes, valueOf]
    cases parseFieldValue parseF64 (asBytes (past '=' piece)) <;> rfl
  · rfl

/-! ### Values -/

theorem asBytes_quote (rest : Str) : asBytes ('"' :: rest) = quote :: asBytes rest := by
  rw [asBytes_cons, utf8EncodeChar_ascii (by decide)]
  rfl

theorem asBytes_eq_quote_cons {s : Str} {rest : Bytes} (encoded : asBytes s = quote :: rest) :
    ∃ t, s = '"' :: t ∧ rest = asBytes t := by
  cases s with
  | nil => cases encoded
  | cons c t =>
    rw [asBytes_cons] at encoded
    have first : quote ∈ String.utf8EncodeChar c := by
      obtain ⟨b, bs, form⟩ := List.exists_cons_of_ne_nil (utf8EncodeChar_ne_nil c)
      rw [form, List.cons_append] at encoded
      rw [form, (List.cons.inj encoded).1]
      exact List.mem_cons_self
    obtain rfl := (asciiByte_mem_encode (c := '"') (by decide)).mp first
    rw [utf8EncodeChar_ascii (by decide)] at encoded
    exact ⟨t, rfl, (List.cons.inj encoded).2.symm⟩

theorem valueOf_quoted (s : Str) : valueOf parseF64 ('"' :: (s ++ ['"'])) = some (.string s) := by
  have more : (asBytes (s ++ ['"'])).isEmpty = false := by
    rw [asBytes_isEmpty, List.isEmpty_eq_false_iff]
    exact List.append_ne_nil_of_right_ne_nil s (List.cons_ne_nil '"' [])
  rw [valueOf, asBytes_quote, parseFieldValue, if_pos rfl, more, if_neg Bool.false_ne_true,
    lossy_dropLast_ascii s (by decide)]

theorem parseFieldValue_string {raw : Bytes} {s : Str} (parsed : parseFieldValue parseF64 raw = some (.string s)) :
    ∃ rest, raw = quote :: rest ∧ s = fromUtf8Lossy rest.dropLast := by
  unfold parseFieldValue at parsed
  split at parsed
  · cases parsed
  split at parsed
  · rename_i first rest quoted
    split at parsed
    · cases parsed
    · obtain rfl := IlpField.string.inj (Option.some.inj parsed)
      exact ⟨rest, by rw [quoted], rfl⟩
  split at parsed
  · obtain ⟨_, _, impossible⟩ := Option.map_eq_some_iff.mp parsed
    cases impossible
  · obtain ⟨text, _, parsed⟩ := Option.bind_eq_some_iff.mp parsed
    split at parsed
    · cases parsed
    split at parsed
    · cases parsed
    · obtain ⟨_, _, impossible⟩ := Option.map_eq_some_iff.mp parsed
      cases impossible

theorem count_string {raw s : Str} {d : Char} (other : d ≠ replacement)
    (parsed : valueOf parseF64 raw = some (.string s)) : s.count d ≤ raw.count d := by
  obtain ⟨rest, encoded, rfl⟩ := parseFieldValue_string parseF64 parsed
  obtain ⟨t, rfl, rfl⟩ := asBytes_eq_quote_cons encoded
  have read := count_lossy_dropLast other t
  rw [List.count_cons]
  omega

theorem asBytes_unquoted {s : Str} (started : s ≠ []) (noQuote : '"' ∉ s) :
    ∃ first rest, asBytes s = first :: rest ∧ first ≠ quote := by
  have nonempty : asBytes s ≠ [] := by
    rw [ne_eq, ← List.isEmpty_iff, asBytes_isEmpty, List.isEmpty_iff]
    exact started
  obtain ⟨first, rest, encoded⟩ := List.exists_cons_of_ne_nil nonempty
  refine ⟨first, rest, encoded, ?_⟩
  rintro rfl
  have inside : quote ∈ asBytes s := by
    rw [encoded]
    exact List.mem_cons_self
  exact noQuote ((asciiByte_mem_asBytes (by decide)).mp inside)

theorem valueOf_integer {digits : Str} (started : digits ≠ []) (noQuote : '"' ∉ digits) :
    valueOf parseF64 (digits ++ ['i']) = (parseI64 digits).map .integer := by
  obtain ⟨first, rest, encoded, unquoted⟩ := asBytes_unquoted started noQuote
  have whole : asBytes (digits ++ ['i']) = first :: (rest ++ [asciiByte 'i']) := by
    rw [asBytes_append, encoded, asBytes_cons, utf8EncodeChar_ascii (by decide)]
    rfl
  have last : (first :: (rest ++ [asciiByte 'i'])).getLast? = some (asciiByte 'i') := by
    rw [← List.cons_append, List.getLast?_concat]
  have front : (first :: (rest ++ [asciiByte 'i'])).dropLast = asBytes digits := by
    rw [← List.cons_append, List.dropLast_concat, encoded]
  have long : 1 < (first :: (rest ++ [asciiByte 'i'])).length := by simp
  simp only [valueOf, whole, parseFieldValue, if_neg unquoted, last, front, long, fromUtf8_asBytes, decide_true,
    Bool.and_self, if_true, Option.bind_some]

/-- The spellings that are read as true and as false. -/
def spellings : Bool → List Str
  | true => ["t".toList, "T".toList, "true".toList, "TRUE".toList]
  | false => ["f".toList, "F".toList, "false".toList, "FALSE".toList]

theorem valueOf_bool {b : Bool} {word : Str} (spelled : word ∈ spellings b) :
    valueOf parseF64 word = some (.bool b) := by
  cases b with
  | true =>
    simp only [spellings, List.mem_cons, List.not_mem_nil, or_false] at spelled
    rcases spelled with rfl | rfl | rfl | rfl <;> rfl
  | false =>
    simp only [spellings, List.mem_cons, List.not_mem_nil, or_false] at spelled
    rcases spelled with rfl | rfl | rfl | rfl <;> rfl

/-! ### Sections -/

def fieldsOf (s : Str) : List (Str × IlpField F) := (s.splitOn ',').filterMap (fieldOf parseF64)

theorem parseFields_asBytes (s : Str) :
    (commaParts (asBytes s)).filterMap (parseField parseF64) = fieldsOf parseF64 s := by
  rw [filterMap_commaParts rfl, fieldsOf]
  congr 1
  funext piece
  exact parseField_asBytes parseF64 piece

theorem parseI64_nil : parseI64 [] = none := rfl

theorem splitFields_space (s : Str) {t : Str} (noSpace : ' ' ∉ t) :
    splitFields (asBytes (s ++ ' ' :: t)) = (asBytes s, parseI64 t) := by
  have fresh : space ∉ (asBytes t).reverse := by
    rwa [List.mem_reverse, space, asciiByte_mem_asBytes (by decide)]
  have encoded : asBytes (s ++ ' ' :: t) = asBytes s ++ space :: asBytes t := by
    rw [asBytes_append, asBytes_cons, utf8EncodeChar_ascii (by decide)]
    rfl
  have last : memrchr space (asBytes (s ++ ' ' :: t)) = some (asBytes s).length := by
    rw [encoded, memrchr, List.reverse_append, List.reverse_cons, List.append_assoc, List.singleton_append,
      memchr_append fresh, Option.map_some, List.length_reverse, List.length_append, List.length_cons]
    congr 1
    omega
  rw [splitFields, last]
  simp only
  rw [take_asBytes, drop_asBytes (by decide), fromUtf8_asBytes, asBytes_isEmpty, Option.bind_some]
  split
  · rename_i empty
    rw [List.isEmpty_iff.mp empty, parseI64_nil]
  · rfl

theorem splitFields_no_space {s : Str} (noSpace : ' ' ∉ s) : splitFields (asBytes s) = (asBytes s, none) := by
  have fresh : space ∉ (asBytes s).reverse := by
    rwa [List.mem_reverse, space, asciiByte_mem_asBytes (by decide)]
  rw [splitFields, memrchr, memchr_eq_none.mpr fresh]
  rfl

/-! ### Rows -/

/-- The row of a line, as it is found on characters. -/
def rowOf (line : Str) : IlpRow F :=
  let rest := past ',' line
  let (fieldsBytes, timestampNs) := splitFields (asBytes (past ' ' rest))
  { measurement := upTo ',' line
    tags := ((upTo ' ' rest).splitOn ',').filterMap tagOf
    fields := (commaParts fieldsBytes).filterMap (parseField parseF64)
    timestampNs }

theorem past_of_not_mem {c : Char} {s : Str} (absent : c ∉ s) : past c s = [] := by
  rw [past, upTo_of_not_mem absent, List.drop_eq_nil_iff]
  omega

theorem parseIlpRow_asBytes {line : Str} (oneLine : '\n' ∉ line) :
    parseIlpRow parseF64 (asBytes line) =
      if ',' ∈ line ∧ upTo ',' line ≠ [] then some (rowOf parseF64 line) else none := by
  have noNewline : (asBytes line).getLast? ≠ some newline := by
    intro last
    exact oneLine ((asciiByte_mem_asBytes (by decide)).mp (List.mem_of_getLast? last))
  have tags (s : Str) : (commaParts (asBytes s)).filterMap parseTag = (s.splitOn ',').filterMap tagOf := by
    rw [filterMap_commaParts rfl]
    congr 1
    funext piece
    exact parseTag_asBytes piece
  rw [parseIlpRow, if_neg noNewline]
  simp only [asBytes_isEmpty, comma, space, splitAtFirst_asBytes (c := ',') (by decide)]
  by_cases present : ',' ∈ line
  · rw [if_neg (by rw [List.isEmpty_iff]; exact List.ne_nil_of_mem present), if_pos present]
    simp only [bind, Option.bind, asBytes_isEmpty, present, true_and, List.isEmpty_iff]
    by_cases empty : upTo ',' line = []
    · rw [if_pos empty, if_neg (by simp [empty])]
    · rw [if_neg empty, if_pos empty, splitAtFirst_asBytes (by decide)]
      simp only [fromUtf8Lossy_asBytes, rowOf]
      by_cases spaced : ' ' ∈ past ',' line
      · simp only [spaced, if_true, Option.getD_some, tags]
      · have encoded : asBytes [] = [] := rfl
        simp only [spaced, if_false, Option.getD_none, tags, upTo_of_not_mem spaced, past_of_not_mem spaced, encoded]
  · simp [present]

end Fields

end QuestRouter.Stream
