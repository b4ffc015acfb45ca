import QuestRouter.Ilp.Line
import QuestRouter.Routing.Keys

/-!
# The key scan on lines of the grammar

The scan takes the first comma of a line for the start of the tag set and the next space for its
end, and knows no escapes. What it reads is followed entry by entry here, and compared with the
value that the grammar gives to the tag.
-/

namespace QuestRouter.Ilp
open Text Routing

/-! ### The scan on characters -/

def upTo (c : Char) (s : Str) : Str := s.takeWhile (· != c)

def entryKey (name : Str) (piece : Str) : Option Str :=
  if '=' ∈ piece ∧ eqIgnoreAsciiCase (upTo '=' piece) name = true then
    some (piece.drop ((upTo '=' piece).length + 1))
  else none

def scanText (name : Str) (s : Str) : Option Str := ((upTo ' ' s).splitOn ',').findSome? (entryKey name)

theorem upTo_append {c : Char} {s : Str} (absent : c ∉ s) (t : Str) : upTo c (s ++ c :: t) = s := by
  rw [upTo, List.takeWhile_append_of_pos]
  · simp
  · intro d member
    rw [bne_iff_ne]
    rintro rfl
    exact absent member

theorem upTo_of_not_mem {c : Char} {s : Str} (absent : c ∉ s) : upTo c s = s := by
  rw [upTo, List.takeWhile_eq_self_iff]
  intro d member
  rw [bne_iff_ne]
  rintro rfl
  exact absent member

theorem memchr_asBytes {c : Char} (ascii : c.toNat < 128) {s : Str} (absent : c ∉ s) (t : Str) :
    memchr (asciiByte c) (asBytes (s ++ c :: t)) = some (asBytes s).length := by
  rw [asBytes_append, asBytes_cons, utf8EncodeChar_ascii ascii]
  exact memchr_append (by rwa [asciiByte_mem_asBytes ascii]) (asBytes t)

theorem memchr_asBytes_none {c : Char} (ascii : c.toNat < 128) {s : Str} (absent : c ∉ s) :
    memchr (asciiByte c) (asBytes s) = none := by
  rwa [memchr_eq_none, asciiByte_mem_asBytes ascii]

theorem drop_asBytes {c : Char} (ascii : c.toNat < 128) (s t : Str) :
    (asBytes (s ++ c :: t)).drop ((asBytes s).length + 1) = asBytes t := by
  rw [asBytes_append, asBytes_cons, utf8EncodeChar_ascii ascii, List.drop_append]
  simp

theorem memchr_getD_asBytes {c : Char} (ascii : c.toNat < 128) (s : Str) :
    (memchr (asciiByte c) (asBytes s)).getD (asBytes s).length = (asBytes (upTo c s)).length := by
  by_cases present : c ∈ s
  · obtain ⟨before, rest, rfl, absent⟩ := List.eq_append_cons_of_mem present
    rw [memchr_asBytes ascii absent, upTo_append absent, Option.getD_some]
  · rw [memchr_asBytes_none ascii present, upTo_of_not_mem present, Option.getD_none]

theorem upTo_start (c : Char) (s : Str) : upTo c s <+: s := List.takeWhile_prefix _

theorem length_asBytes_le {s t : Str} (start : s <+: t) : (asBytes s).length ≤ (asBytes t).length := by
  obtain ⟨rest, rfl⟩ := start
  simp

/-- Of two delimiters, the first to come ends the name. -/
theorem min_length_upTo (c d : Char) (s : Str) :
    min (asBytes (upTo c s)).length (asBytes (upTo d s)).length = (asBytes (upTo d (upTo c s))).length := by
  obtain ⟨tail, split⟩ := upTo_start c s
  by_cases inside : d ∈ upTo c s
  · obtain ⟨before, rest, cut, absent⟩ := List.eq_append_cons_of_mem inside
    have whole : upTo d s = before := by
      rw [← split, cut, List.append_assoc, List.cons_append, upTo_append absent]
    have part : upTo d (upTo c s) = before := by rw [cut, upTo_append absent]
    rw [whole, part]
    exact Nat.min_eq_right (length_asBytes_le ⟨d :: rest, cut.symm⟩)
  · rw [upTo_of_not_mem inside]
    refine Nat.min_eq_left (length_asBytes_le ⟨upTo d tail, ?_⟩)
    conv_rhs => rw [← split]
    unfold upTo
    rw [List.takeWhile_append_of_pos]
    intro e member
    rw [bne_iff_ne]
    rintro rfl
    exact inside member

theorem firstLine_asBytes {s : Str} (line : '\n' ∉ s) : firstLine (asBytes s) = asBytes s := by
  rw [firstLine, newline, memchr_asBytes_none (by decide) line]
  simp

theorem measurement_asBytes {s : Str} (line : '\n' ∉ s) :
    measurementFromIlpBytes (asBytes s) =
      if upTo ' ' (upTo ',' s) = [] then none else some (upTo ' ' (upTo ',' s)) := by
  obtain ⟨rest, split⟩ := (upTo_start ' ' (upTo ',' s)).trans (upTo_start ',' s)
  have ends : min ((memchr comma (asBytes s)).getD (asBytes s).length)
      ((memchr space (asBytes s)).getD (asBytes s).length) = (asBytes (upTo ' ' (upTo ',' s))).length := by
    rw [comma, space, memchr_getD_asBytes (by decide), memchr_getD_asBytes (by decide), min_length_upTo]
  have cut : (asBytes s).take (asBytes (upTo ' ' (upTo ',' s))).length = asBytes (upTo ' ' (upTo ',' s)) := by
    have taken := take_asBytes (upTo ' ' (upTo ',' s)) rest
    rwa [split] at taken
  have none : (asBytes (upTo ' ' (upTo ',' s))).length = 0 ↔ upTo ' ' (upTo ',' s) = [] := by
    rw [List.length_eq_zero_iff]
    exact ⟨fun empty => asBytes_injective (empty.trans rfl), fun empty => by rw [empty]; rfl⟩
  unfold measurementFromIlpBytes
  split
  · rename_i empty
    obtain rfl : s = [] := asBytes_injective (List.isEmpty_iff.mp empty)
    rfl
  · simp only [firstLine_asBytes line, ends, none, cut, fromUtf8_asBytes]

theorem tagValue_asBytes (name piece : Str) : tagValue name (asBytes piece) = entryKey name piece := by
  unfold tagValue entryKey
  by_cases present : '=' ∈ piece
  · obtain ⟨before, value, rfl, absent⟩ := List.eq_append_cons_of_mem present
    rw [equals, memchr_asBytes (by decide) absent]
    simp only [take_asBytes, drop_asBytes (c := '=') (by decide), upTo_append absent, tagNameEq, fromUtf8_asBytes,
      present, true_and, Option.getD_some]
    simp
  · rw [equals, memchr_asBytes_none (by decide) present]
    simp [present]

theorem tagSection_asBytes (s : Str) : tagSection (asBytes s) = asBytes (upTo ' ' s) := by
  unfold tagSection
  by_cases present : ' ' ∈ s
  · obtain ⟨before, later, rfl, absent⟩ := List.eq_append_cons_of_mem present
    rw [space, memchr_asBytes (by decide) absent, upTo_append absent]
    exact take_asBytes before _
  · rw [space, memchr_asBytes_none (by decide) present, upTo_of_not_mem present]

theorem scan_asBytes (name s : Str) :
    ((tagSection (asBytes s)).splitOn comma).findSome? (tagValue name) = scanText name s := by
  rw [tagSection_asBytes, comma, splitOn_asBytes (by decide), List.findSome?_map, scanText]
  congr 1
  funext piece
  exact tagValue_asBytes name piece

theorem shardKey_of_comma {before : Str} (absent : ',' ∉ before) {after name : Str}
    (line : '\n' ∉ before ++ ',' :: after) :
    shardKeyFromIlpCow (asBytes (before ++ ',' :: after)) name = (scanText name after).getD name := by
  have nonempty : (asBytes (before ++ ',' :: after)).isEmpty = false := by
    rw [asBytes_append, asBytes_cons, utf8EncodeChar_ascii (by decide)]
    simp
  simp only [shardKeyFromIlpCow, nonempty, firstLine_asBytes line, Bool.false_eq_true, if_false]
  rw [comma, memchr_asBytes (by decide) absent]
  simp only [drop_asBytes (c := ',') (by decide)]
  rw [← comma, scan_asBytes]

theorem shardKey_of_no_comma {s name : Str} (absent : ',' ∉ s) (line : '\n' ∉ s) :
    shardKeyFromIlpCow (asBytes s) name = name := by
  unfold shardKeyFromIlpCow
  split
  · rfl
  · simp only [firstLine_asBytes line]
    rw [comma, memchr_asBytes_none (by decide) absent]

/-! ### Pieces -/

theorem scanText_comma {name piece : Str} (noSpace : ' ' ∉ piece) (noComma : ',' ∉ piece) (rest : Str) :
    scanText name (piece ++ ',' :: rest) = (entryKey name piece).or (scanText name rest) := by
  have section_eq : upTo ' ' (piece ++ ',' :: rest) = piece ++ ',' :: upTo ' ' rest := by
    unfold upTo
    rw [List.takeWhile_append_of_pos]
    · rfl
    · intro c member
      rw [bne_iff_ne]
      rintro rfl
      exact noSpace member
  unfold scanText
  rw [section_eq, List.splitOn_append_cons_self_of_not_mem noComma, List.findSome?_cons]
  cases entryKey name piece <;> rfl

theorem scanText_space {name piece : Str} (noSpace : ' ' ∉ piece) (noComma : ',' ∉ piece) (rest : Str) :
    scanText name (piece ++ ' ' :: rest) = entryKey name piece := by
  unfold scanText
  rw [upTo_append noSpace, List.splitOn_eq_singleton noComma, List.findSome?_cons]
  cases entryKey name piece <;> rfl

theorem entryKey_nil (tag : Str) : entryKey tag [] = none := by simp [entryKey]

theorem scanText_tail_comma (tag rest : Str) : scanText tag (',' :: rest) = scanText tag rest := by
  have skip : scanText tag ([] ++ ',' :: rest) = _ := scanText_comma (by simp) (by simp) rest
  rwa [entryKey_nil, List.nil_append, Option.none_or] at skip

theorem scanText_tail_space (tag rest : Str) : scanText tag (' ' :: rest) = none := by
  have stop : scanText tag ([] ++ ' ' :: rest) = _ := scanText_space (by simp) (by simp) rest
  rwa [entryKey_nil, List.nil_append] at stop

theorem scanText_piece {tag piece tail : Str} (noSpace : ' ' ∉ piece) (noComma : ',' ∉ piece)
    (tailEnds : ∃ c rest, tail = c :: rest ∧ (c = ',' ∨ c = ' ')) :
    scanText tag (piece ++ tail) = (entryKey tag piece).or (scanText tag tail) := by
  obtain ⟨c, rest, rfl, rfl | rfl⟩ := tailEnds
  · rw [scanText_comma noSpace noComma, scanText_tail_comma]
  · rw [scanText_space noSpace noComma, scanText_tail_space, Option.or_none]

/-- A scan goes on behind a comma where no space ends it before. -/
theorem scanText_behind (tag before rest : Str) :
    scanText tag (before ++ ',' :: rest) =
      (scanText tag before).or (if ' ' ∈ before then none else scanText tag rest) := by
  unfold scanText
  by_cases space : ' ' ∈ before
  · obtain ⟨first, later, rfl, absent⟩ := List.eq_append_cons_of_mem space
    rw [if_pos space, Option.or_none, List.append_assoc, List.cons_append, upTo_append absent, upTo_append absent]
  · have clean : ∀ c ∈ before, (c != ' ') = true := by
      intro c member
      rw [bne_iff_ne]
      rintro rfl
      exact space member
    have whole : upTo ' ' (before ++ ',' :: rest) = before ++ ',' :: upTo ' ' rest := by
      unfold upTo
      rw [List.takeWhile_append_of_pos clean]
      rfl
    rw [if_neg space, whole, upTo_of_not_mem space, List.splitOn_append_cons_self, List.findSome?_append]

theorem toLower_eq_backslash {c : Char} (same : c.toLower = '\\') : c = '\\' := by
  by_cases upper : c.val ≥ 'A'.val ∧ c.val ≤ 'Z'.val
  · have lowered : c.toLower.val = c.val + 32 := congrArg Char.val (dif_pos upper)
    rw [same] at lowered
    simp only [ge_iff_le, UInt32.le_iff_toNat_le, ← UInt32.toNat_inj, UInt32.toNat_add] at upper lowered
    simp at upper lowered
    omega
  · have kept : c.toLower = c := dif_neg upper
    rw [← kept, same]

theorem eqIgnoreAsciiCase_backslash {x tag : Str} (same : eqIgnoreAsciiCase (x ++ ['\\']) tag = true) :
    tag.getLast? = some '\\' := by
  rw [eqIgnoreAsciiCase_iff] at same
  have last := congrArg List.getLast? same
  simp only [toAsciiLowercase, List.map_append, List.map_cons, List.map_nil, List.getLast?_concat,
    List.getLast?_map] at last
  obtain ⟨c, ends, lower⟩ := Option.map_eq_some_iff.mp last.symm
  rw [ends, toLower_eq_backslash (lower.trans (by decide))]

section Escapes
variable {tag : Str} (ends : tag.getLast? ≠ some '\\')
include ends

theorem entryKey_of_escaped {m : Str} (escaped : '=' ∈ m) (rest : Str) :
    entryKey tag (escape m ++ rest) = none := by
  obtain ⟨before, after, rfl, absent⟩ := List.eq_append_cons_of_mem escaped
  have name : upTo '=' (escape (before ++ '=' :: after) ++ rest) = escape before ++ ['\\'] := by
    have outside : '=' ∉ escape before ++ ['\\'] := by simp [mem_escape, absent]
    have := upTo_append outside (escape after ++ rest)
    simpa [escape_cons, isSpecial] using this
  rw [entryKey, name, if_neg]
  rintro ⟨-, same⟩
  exact ends (eqIgnoreAsciiCase_backslash same)

theorem entryKey_escape (m : Str) {rest : Str} (absent : '=' ∉ rest) : entryKey tag (escape m ++ rest) = none := by
  by_cases escaped : '=' ∈ m
  · exact entryKey_of_escaped ends escaped rest
  · rw [entryKey, if_neg]
    simp [mem_escape, escaped, absent]

theorem entryKey_entry (m value : Str) :
    entryKey tag (escape m ++ '=' :: value) =
      if '=' ∉ m ∧ eqIgnoreAsciiCase (escape m) tag = true then some value else none := by
  by_cases escaped : '=' ∈ m
  · rw [entryKey_of_escaped ends escaped, if_neg (by simp [escaped])]
  · have absent : '=' ∉ escape m := by rwa [mem_escape (by decide)]
    rw [entryKey, upTo_append absent]
    simp [escaped]

theorem scanText_escaped_comma {w : Str} (noSpace : ' ' ∉ w) (noComma : ',' ∉ w) (rest : Str) :
    scanText tag (escape (w ++ [',']) ++ rest) = scanText tag rest := by
  have split : escape (w ++ [',']) ++ rest = (escape w ++ ['\\']) ++ ',' :: rest := by
    simp [escape_cons, isSpecial]
  rw [split, scanText_comma (by simp [mem_escape, noSpace]) (by simp [mem_escape, noComma]),
    entryKey_escape ends w (by simp), Option.none_or]

theorem scanText_escaped_space {w : Str} (noSpace : ' ' ∉ w) (noComma : ',' ∉ w) (rest : Str) :
    scanText tag (escape (w ++ [' ']) ++ rest) = none := by
  have split : escape (w ++ [' ']) ++ rest = (escape w ++ ['\\']) ++ ' ' :: rest := by
    simp [escape_cons, isSpecial]
  rw [split, scanText_space (by simp [mem_escape, noSpace]) (by simp [mem_escape, noComma]),
    entryKey_escape ends w (by simp)]

/-- Of an escaped text, the scan passes to what follows its last comma, unless a space ends the scan. -/
theorem scanText_escape (w rest : Str) :
    scanText tag (escape w ++ rest) =
      if ' ' ∈ w then none else scanText tag (escape (lastSegment ',' w) ++ rest) := by
  induction length : w.length using Nat.strongRecOn generalizing w with
  | ind _ ih =>
    by_cases comma : ',' ∈ w
    · obtain ⟨before, after, rfl, noComma⟩ := List.eq_append_cons_of_mem comma
      rw [lastSegment_append, List.append_cons, escape_append, List.append_assoc]
      by_cases space : ' ' ∈ before
      · obtain ⟨first, later, rfl, noSpace⟩ := List.eq_append_cons_of_mem space
        rw [List.append_cons first, List.append_assoc (first ++ [' ']), escape_append, List.append_assoc,
          scanText_escaped_space ends noSpace (by simp_all)]
        simp
      · rw [scanText_escaped_comma ends space noComma, ih after.length (by simp at length; omega) after rfl]
        simp [space]
    · rw [lastSegment_of_not_mem comma]
      by_cases space : ' ' ∈ w
      · obtain ⟨first, later, rfl, noSpace⟩ := List.eq_append_cons_of_mem space
        rw [List.append_cons, escape_append, List.append_assoc,
          scanText_escaped_space ends noSpace (by simp_all)]
        simp
      · rw [if_neg space]

end Escapes

end QuestRouter.Ilp
