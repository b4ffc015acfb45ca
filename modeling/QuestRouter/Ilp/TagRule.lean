import QuestRouter.Ilp.KeyScan

/-!
# The key and the tag set

The key of a line is the value of its tag exactly when no escape and no comma outside the tag set
misleads the scan. `Line.ReadsAs` says where the scan looks in terms of the grammar.
-/

namespace QuestRouter.Ilp
open Text Routing

/-! ### Lines without escapes -/

/-- A measurement without commas and a tag set of plain names and values that is not empty. -/
def Line.Unescaped (line : Line) : Prop :=
  ',' ∉ line.measurement ∧ line.tags ≠ [] ∧ ∀ entry ∈ line.tags, Plain entry.1 ∧ Plain entry.2

theorem tagText_ends (tags : List (Str × Str)) (fields : Str) :
    ∃ c rest, tagText tags fields = c :: rest ∧ (c = ',' ∨ c = ' ') := by
  cases tags with
  | nil => exact ⟨' ', fields, rfl, .inr rfl⟩
  | cons entry tags => exact ⟨',', _, rfl, .inl rfl⟩

theorem scanText_unescaped (tag fields : Str) {tags : List (Str × Str)}
    (plain : ∀ entry ∈ tags, Plain entry.1 ∧ Plain entry.2) :
    scanText tag (tagText tags fields) =
      (tags.find? fun entry => eqIgnoreAsciiCase entry.1 tag).map (·.2) := by
  induction tags with
  | nil => exact scanText_tail_space tag fields
  | cons entry tags ih =>
    obtain ⟨name, value⟩ := entry
    obtain ⟨plainName, plainValue⟩ := plain _ List.mem_cons_self
    have text : tagText ((name, value) :: tags) fields = ',' :: ((name ++ '=' :: value) ++ tagText tags fields) := by
      simp [tagText, entryText, escape_plain plainName, escape_plain plainValue]
    have key : entryKey tag (name ++ '=' :: value) = if eqIgnoreAsciiCase name tag = true then some value else none := by
      rw [entryKey, upTo_append (plainName.not_mem (by decide))]
      simp
    have noSpace : ' ' ∉ name ++ '=' :: value := by
      simp [plainName.not_mem (c := ' ') (by decide), plainValue.not_mem (c := ' ') (by decide)]
    have noComma : ',' ∉ name ++ '=' :: value := by
      simp [plainName.not_mem (c := ',') (by decide), plainValue.not_mem (c := ',') (by decide)]
    rw [text, scanText_tail_comma, scanText_piece noSpace noComma (tagText_ends tags fields), key,
      ih fun entry member => plain entry (List.mem_cons_of_mem _ member), List.find?_cons]
    cases eqIgnoreAsciiCase name tag <;> rfl

theorem Line.shardKey_of_unescaped {line : Line} (unescaped : line.Unescaped) (tag : Str) :
    shardKeyFromIlpCow line.bytes tag = line.keyOf tag := by
  obtain ⟨noComma, nonempty, plain⟩ := unescaped
  have scanned := scanText_unescaped tag line.fields plain
  obtain ⟨entry, tags, some⟩ := List.exists_cons_of_ne_nil nonempty
  have newline := line.newline_not_mem
  unfold Line.bytes
  unfold Line.text at newline ⊢
  rw [some] at newline scanned ⊢
  change '\n' ∉ escape line.measurement ++ ',' :: _ at newline
  change scanText tag (',' :: _) = _ at scanned
  rw [scanText_tail_comma] at scanned
  change shardKeyFromIlpCow (asBytes (escape line.measurement ++ ',' :: _)) tag = _
  rw [shardKey_of_comma (by rwa [mem_escape (by decide)]) newline, scanned, Line.keyOf, Line.tag, some]

/-! ### All lines -/

/-- The scan takes this name for the tag. It sees the part of the name after the last comma. -/
def NameRead (tag name : Str) : Prop :=
  '=' ∉ lastSegment ',' name ∧ eqIgnoreAsciiCase (escape (lastSegment ',' name)) tag = true

instance (tag name : Str) : Decidable (NameRead tag name) := by unfold NameRead; infer_instance

/-- The part of a text that the scan sees where it looks for the next space or comma. -/
def readPart (s : Str) : Str := (escape s).takeWhile fun c => c != ' ' && c != ','

/-- The entry that the scan takes for the tag gives the wanted key. A space ends the scan. -/
def EntriesRead (tag want : Str) : List (Str × Str) → Prop
  | [] => want = tag
  | (name, value) :: rest =>
    if ' ' ∈ name then want = tag
    else if NameRead tag name then readPart value = want
    else if ' ' ∈ value then want = tag
    else EntriesRead tag want rest

def afterComma (s : Str) : Str := s.drop ((upTo ',' s).length + 1)

/-- What is between the commas after the first one of a field set, up to the next space. -/
def laterFields (fields : Str) : List Str := (upTo ' ' (afterComma fields)).splitOn ','

def fieldNamed (tag field : Str) : Bool := field.elem '=' && eqIgnoreAsciiCase (upTo '=' field) tag

/-- The first of the later fields with the tag's name has the wanted key as value. -/
def FieldsRead (tag want fields : Str) : Prop :=
  match (laterFields fields).find? (fieldNamed tag) with
  | some field => field = upTo '=' field ++ '=' :: want
  | none => want = tag

/-- The scan of the line for a tag ends with this key. -/
def Line.ReadsAs (line : Line) (tag want : Str) : Prop :=
  -- An escaped comma of the measurement starts the scan, and an escaped space after it ends it.
  if ',' ∈ line.measurement ∧ ' ' ∈ afterComma line.measurement then want = tag
  else if ',' ∉ line.measurement ∧ line.tags = [] then FieldsRead tag want line.fields
  else EntriesRead tag want line.tags

theorem afterComma_append {before : Str} (absent : ',' ∉ before) (after : Str) :
    afterComma (before ++ ',' :: after) = after := by
  simp [afterComma, upTo_append absent]

theorem afterComma_of_not_mem {s : Str} (absent : ',' ∉ s) : afterComma s = [] := by
  simp [afterComma, upTo_of_not_mem absent]

theorem entryKey_eq (tag piece : Str) :
    entryKey tag piece = if fieldNamed tag piece then some (piece.drop ((upTo '=' piece).length + 1)) else none := by
  simp [entryKey, fieldNamed]

theorem findSome?_entryKey (tag : Str) (pieces : List Str) :
    pieces.findSome? (entryKey tag) =
      (pieces.find? (fieldNamed tag)).map fun piece => piece.drop ((upTo '=' piece).length + 1) := by
  induction pieces with
  | nil => rfl
  | cons piece pieces ih =>
    rw [List.findSome?_cons, List.find?_cons, entryKey_eq, ih]
    cases fieldNamed tag piece <;> rfl

theorem scanText_laterFields (tag want fields : Str) :
    (scanText tag (afterComma fields)).getD tag = want ↔ FieldsRead tag want fields := by
  have scanned : scanText tag (afterComma fields) = (laterFields fields).findSome? (entryKey tag) := rfl
  rw [scanned, findSome?_entryKey, FieldsRead]
  cases found : (laterFields fields).find? (fieldNamed tag) with
  | none => exact eq_comm
  | some field =>
    have named := List.find?_some found
    rw [fieldNamed, Bool.and_eq_true, List.elem_iff] at named
    obtain ⟨name, value, rfl, absent⟩ := List.eq_append_cons_of_mem named.1
    simp [upTo_append absent]

section Escapes
variable {tag : Str} (ends : tag.getLast? ≠ some '\\')
include ends

theorem scanText_escape_tail (w : Str) {tail : Str}
    (tailEnds : ∃ c rest, tail = c :: rest ∧ (c = ',' ∨ c = ' ')) :
    scanText tag (escape w ++ tail) = if ' ' ∈ w then none else scanText tag tail := by
  rw [scanText_escape ends w]
  by_cases space : ' ' ∈ w
  · rw [if_pos space, if_pos space]
  · have noSpace : ' ' ∉ escape (lastSegment ',' w) := by
      rw [mem_escape (by decide)]
      exact fun member => space (mem_of_mem_lastSegment member)
    have noComma : ',' ∉ escape (lastSegment ',' w) := by
      rw [mem_escape (by decide)]
      exact not_mem_lastSegment ',' w
    have none : entryKey tag (escape (lastSegment ',' w) ++ []) = none :=
      entryKey_escape ends (lastSegment ',' w) (by simp)
    rw [List.append_nil] at none
    rw [if_neg space, if_neg space, scanText_piece noSpace noComma tailEnds, none, Option.none_or]

theorem scanText_value {m : Str} (noSpace : ' ' ∉ m) (noComma : ',' ∉ m) (value : Str) {tail : Str}
    (tailEnds : ∃ c rest, tail = c :: rest ∧ (c = ',' ∨ c = ' ')) :
    scanText tag (escape m ++ '=' :: (escape value ++ tail)) =
      if '=' ∉ m ∧ eqIgnoreAsciiCase (escape m) tag = true then some (readPart value)
      else if ' ' ∈ value then none else scanText tag tail := by
  cases cut : value.find? fun c => c == ' ' || c == ',' with
  | none =>
    rw [List.find?_eq_none] at cut
    have valueSpace : ' ' ∉ value := fun member => cut _ member (by decide)
    have valueComma : ',' ∉ value := fun member => cut _ member (by decide)
    have whole : readPart value = escape value := by
      rw [readPart, List.takeWhile_eq_self_iff]
      intro c member
      have space : c ≠ ' ' := by rintro rfl; exact valueSpace ((mem_escape (by decide)).mp member)
      have comma : c ≠ ',' := by rintro rfl; exact valueComma ((mem_escape (by decide)).mp member)
      simp [space, comma]
    have piece : scanText tag (escape m ++ '=' :: escape value ++ tail) = _ := scanText_piece
      (by simp [mem_escape, noSpace, valueSpace]) (by simp [mem_escape, noComma, valueComma]) tailEnds
    rw [entryKey_entry ends, List.append_assoc, List.cons_append] at piece
    rw [piece, whole, if_neg valueSpace]
    split <;> rfl
  | some c =>
    obtain ⟨stop, before, after, rfl, clean⟩ := List.find?_eq_some_iff_append.mp cut
    have beforeSpace : ' ' ∉ before := fun member => by simpa using clean _ member
    have beforeComma : ',' ∉ before := fun member => by simpa using clean _ member
    have special : isSpecial c = true := by
      rw [Bool.or_eq_true, beq_iff_eq, beq_iff_eq] at stop
      obtain rfl | rfl := stop <;> rfl
    have text : escape (before ++ c :: after) = (escape before ++ ['\\']) ++ c :: escape after := by
      simp [escape_cons, special]
    have seen : ∀ d ∈ escape before ++ ['\\'], (d != ' ' && d != ',') = true := by
      intro d member
      have space : d ≠ ' ' := by rintro rfl; simp [mem_escape, beforeSpace] at member
      have comma : d ≠ ',' := by rintro rfl; simp [mem_escape, beforeComma] at member
      simp [space, comma]
    have read : readPart (before ++ c :: after) = escape before ++ ['\\'] := by
      have stops : ¬(c != ' ' && c != ',') = true := by
        rw [Bool.or_eq_true, beq_iff_eq, beq_iff_eq] at stop
        obtain rfl | rfl := stop <;> decide
      rw [readPart, text, List.takeWhile_append_of_pos seen, List.takeWhile_cons, if_neg stops, List.append_nil]
    have split : escape m ++ '=' :: (escape (before ++ c :: after) ++ tail) =
        (escape m ++ '=' :: (escape before ++ ['\\'])) ++ (c :: (escape after ++ tail)) := by
      rw [text]
      simp
    have pieceSpace : ' ' ∉ escape m ++ '=' :: (escape before ++ ['\\']) := by
      simp [mem_escape, noSpace, beforeSpace]
    have pieceComma : ',' ∉ escape m ++ '=' :: (escape before ++ ['\\']) := by
      simp [mem_escape, noComma, beforeComma]
    rw [Bool.or_eq_true, beq_iff_eq, beq_iff_eq] at stop
    rw [split, scanText_piece pieceSpace pieceComma ⟨c, _, rfl, stop.symm⟩, entryKey_entry ends, read]
    by_cases named : '=' ∉ m ∧ eqIgnoreAsciiCase (escape m) tag = true
    · rw [if_pos named, if_pos named, Option.some_or]
    · rw [if_neg named, if_neg named, Option.none_or]
      obtain rfl | rfl := stop
      · rw [scanText_tail_space, if_pos (by simp)]
      · rw [scanText_tail_comma, scanText_escape_tail ends after tailEnds]
        simp [beforeSpace]

theorem scanText_entry (name value : Str) {tail : Str}
    (tailEnds : ∃ c rest, tail = c :: rest ∧ (c = ',' ∨ c = ' ')) :
    scanText tag (entryText (name, value) ++ tail) =
      if ' ' ∈ name then none
      else if NameRead tag name then some (readPart value)
      else if ' ' ∈ value then none
      else scanText tag tail := by
  have text : entryText (name, value) ++ tail = ',' :: (escape name ++ '=' :: (escape value ++ tail)) := by
    simp [entryText]
  rw [text, scanText_tail_comma, scanText_escape ends name]
  by_cases space : ' ' ∈ name
  · rw [if_pos space, if_pos space]
  · have noSpace : ' ' ∉ lastSegment ',' name := fun member => space (mem_of_mem_lastSegment member)
    rw [if_neg space, if_neg space, scanText_value ends noSpace (not_mem_lastSegment ',' name) value tailEnds]
    rfl

theorem scanText_tagText (want fields : Str) (tags : List (Str × Str)) :
    (scanText tag (tagText tags fields)).getD tag = want ↔ EntriesRead tag want tags := by
  induction tags with
  | nil =>
    change (scanText tag (' ' :: fields)).getD tag = want ↔ want = tag
    rw [scanText_tail_space]
    exact eq_comm
  | cons entry tags ih =>
    obtain ⟨name, value⟩ := entry
    have text : tagText ((name, value) :: tags) fields = entryText (name, value) ++ tagText tags fields := by
      simp [tagText]
    rw [text, scanText_entry ends name value (tagText_ends tags fields), EntriesRead, ← ih]
    split_ifs with space named valueSpace
    · exact eq_comm
    · rfl
    · exact eq_comm
    · rfl

theorem Line.shardKey_iff (line : Line) (want : Str) :
    shardKeyFromIlpCow line.bytes tag = want ↔ line.ReadsAs tag want := by
  have newline := line.newline_not_mem
  unfold Line.bytes Line.ReadsAs
  unfold Line.text at newline ⊢
  by_cases comma : ',' ∈ line.measurement
  · obtain ⟨before, after, split, absent⟩ := List.eq_append_cons_of_mem comma
    have text : escape line.measurement ++ tagText line.tags line.fields =
        (escape before ++ ['\\']) ++ ',' :: (escape after ++ tagText line.tags line.fields) := by
      rw [split]
      simp [escape_cons, isSpecial]
    rw [text] at newline ⊢
    rw [shardKey_of_comma (by simp [mem_escape, absent]) newline,
      scanText_escape_tail ends after (tagText_ends line.tags line.fields), split, afterComma_append absent]
    by_cases space : ' ' ∈ after
    · rw [if_pos space, if_pos ⟨by simp, space⟩]
      exact eq_comm
    · rw [if_neg space, if_neg (by simp [space]), if_neg (by simp)]
      exact scanText_tagText ends want line.fields line.tags
  · have absent : ',' ∉ escape line.measurement := by rwa [mem_escape (by decide)]
    rw [if_neg (by simp [comma])]
    by_cases noTags : line.tags = []
    · rw [if_pos ⟨comma, noTags⟩, noTags, ← scanText_laterFields]
      rw [noTags] at newline
      change '\n' ∉ escape line.measurement ++ ' ' :: line.fields at newline
      change shardKeyFromIlpCow (asBytes (escape line.measurement ++ ' ' :: line.fields)) tag = want ↔ _
      by_cases fieldComma : ',' ∈ line.fields
      · obtain ⟨before, after, split, first⟩ := List.eq_append_cons_of_mem fieldComma
        have text : escape line.measurement ++ ' ' :: line.fields =
            (escape line.measurement ++ ' ' :: before) ++ ',' :: after := by
          rw [split]
          simp
        rw [text] at newline ⊢
        rw [shardKey_of_comma (by simp [absent, first]) newline, split, afterComma_append first]
      · rw [shardKey_of_no_comma (by simp [absent, fieldComma]) newline, afterComma_of_not_mem fieldComma]
        simp [scanText, upTo, entryKey_nil]
    · rw [if_neg (by simp [noTags]), ← scanText_tagText ends want line.fields]
      obtain ⟨entry, tags, some⟩ := List.exists_cons_of_ne_nil noTags
      have text : tagText line.tags line.fields =
          ',' :: (escape entry.1 ++ '=' :: (escape entry.2 ++ tagText tags line.fields)) := by
        rw [some]
        simp [tagText, entryText]
      rw [text] at newline ⊢
      rw [shardKey_of_comma absent newline, scanText_tail_comma]

end Escapes

/-! ### The key of a line -/

theorem nameRead_plain {name : Str} (plain : Plain name) (tag : Str) :
    NameRead tag name ↔ eqIgnoreAsciiCase name tag = true := by
  have noComma := lastSegment_of_not_mem (plain.not_mem (c := ',') (by decide))
  have noEquals := plain.not_mem (c := '=') (by decide)
  rw [NameRead, noComma, escape_plain plain]
  exact and_iff_right noEquals

theorem readPart_plain {s : Str} (plain : Plain s) : readPart s = s := by
  rw [readPart, escape_plain plain, List.takeWhile_eq_self_iff]
  intro c member
  have space : c ≠ ' ' := by rintro rfl; exact plain.not_mem (by decide) member
  have comma : c ≠ ',' := by rintro rfl; exact plain.not_mem (by decide) member
  simp [space, comma]

theorem readPart_cons_of_special {c : Char} (special : isSpecial c = true) (s : Str) :
    readPart (c :: s) = '\\' :: (c :: escape s).takeWhile fun c => c != ' ' && c != ',' := by
  rw [readPart, escape_cons, if_pos special]
  rfl

theorem readPart_cons_of_plain {c : Char} (plain : isSpecial c = false) (s : Str) : readPart (c :: s) = c :: readPart s := by
  have goesOn : (c != ' ' && c != ',') = true := by
    rw [Bool.and_eq_true, bne_iff_ne, bne_iff_ne]
    constructor <;> rintro rfl <;> cases plain
  rw [readPart, escape_cons, plain, if_neg Bool.false_ne_true, List.singleton_append,
    List.takeWhile_cons_of_pos (by simpa using goesOn)]
  rfl

/-- Behind one backslash more than were escaped, a text is never read as itself. -/
theorem replicate_readPart_ne (n : Nat) (s : Str) : List.replicate (n + 1) '\\' ++ readPart s ≠ s := by
  induction s generalizing n with
  | nil =>
    rw [List.replicate_succ, List.cons_append]
    exact List.cons_ne_nil _ _
  | cons c s ih =>
    intro same
    rw [List.replicate_succ, List.cons_append, List.cons.injEq] at same
    obtain ⟨rfl, same⟩ := same
    have twice : readPart ('\\' :: s) = List.replicate 2 '\\' ++ readPart s := readPart_cons_of_special rfl s
    rw [twice, ← List.append_assoc, List.replicate_append_replicate] at same
    exact ih (n + 1) same

/-- Only a plain text is read as itself. -/
theorem readPart_eq_self_iff {s : Str} : readPart s = s ↔ Plain s := by
  refine ⟨fun same => ?_, readPart_plain⟩
  induction s with
  | nil => nofun
  | cons c s ih =>
    cases special : isSpecial c with
    | false =>
      rw [readPart_cons_of_plain special, List.cons_inj_right] at same
      exact List.forall_mem_cons.mpr ⟨special, ih same⟩
    | true =>
      rw [readPart_cons_of_special special, List.cons.injEq] at same
      obtain ⟨rfl, same⟩ := same
      exact (replicate_readPart_ne 0 s same).elim

theorem entriesRead_plain {tags : List (Str × Str)} (plain : ∀ entry ∈ tags, Plain entry.1 ∧ Plain entry.2)
    (tag want : Str) :
    EntriesRead tag want tags ↔
      ((tags.find? fun entry => eqIgnoreAsciiCase entry.1 tag).map (·.2)).getD tag = want := by
  induction tags with
  | nil => exact eq_comm
  | cons entry tags ih =>
    obtain ⟨name, value⟩ := entry
    obtain ⟨plainName, plainValue⟩ := plain _ List.mem_cons_self
    rw [EntriesRead, if_neg (plainName.not_mem (by decide)), List.find?_cons]
    by_cases named : eqIgnoreAsciiCase name tag = true
    · rw [if_pos ((nameRead_plain plainName tag).mpr named), readPart_plain plainValue, named]
      rfl
    · rw [if_neg fun read => named ((nameRead_plain plainName tag).mp read),
        if_neg (plainValue.not_mem (by decide)), ih fun entry member => plain entry (List.mem_cons_of_mem _ member),
        Bool.eq_false_iff.mpr named]

theorem Line.readsAs_unescaped {line : Line} (unescaped : line.Unescaped) (tag want : Str) :
    line.ReadsAs tag want ↔ line.keyOf tag = want := by
  obtain ⟨noComma, nonempty, plain⟩ := unescaped
  rw [Line.ReadsAs, if_neg (by simp [noComma]), if_neg (by simp [nonempty]), entriesRead_plain plain]
  rfl

theorem Line.shardKey_readsAs {line : Line} {tag : Str}
    (readable : line.Unescaped ∨ tag.getLast? ≠ some '\\') (want : Str) :
    shardKeyFromIlpCow line.bytes tag = want ↔ line.ReadsAs tag want := by
  rcases readable with unescaped | ends
  · rw [Line.shardKey_of_unescaped unescaped, Line.readsAs_unescaped unescaped]
  · exact line.shardKey_iff ends want

theorem readPart_split (m : Str) {tail : Str} (tailEnds : ∃ c rest, tail = c :: rest ∧ (c = ',' ∨ c = ' ')) :
    ∃ c rest, escape m ++ tail = readPart m ++ c :: rest ∧ (c = ',' ∨ c = ' ') := by
  have split := List.takeWhile_append_dropWhile (p := fun c => c != ' ' && c != ',') (l := escape m)
  cases after : (escape m).dropWhile fun c => c != ' ' && c != ',' with
  | nil =>
    obtain ⟨c, rest, rfl, stop⟩ := tailEnds
    rw [after, List.append_nil] at split
    exact ⟨c, rest, by rw [readPart, split], stop⟩
  | cons c rest =>
    have stop := List.head_dropWhile_not (fun c => c != ' ' && c != ',') (l := escape m) (by simp [after])
    simp only [after, List.head_cons] at stop
    rw [after] at split
    refine ⟨c, rest ++ tail, ?_, ?_⟩
    · conv_lhs => rw [← split]
      simp [readPart]
    · by_contra other
      rw [not_or] at other
      simp [other] at stop

theorem upTo_upTo_comma (s : Str) : upTo ' ' (upTo ',' s) = s.takeWhile fun c => c != ' ' && c != ',' := by
  rw [upTo, upTo, List.takeWhile_takeWhile]
  congr 1
  funext c
  rw [Bool.decide_and, Bool.decide_eq_true, Bool.decide_eq_true]

theorem Line.measurement_eq (line : Line) :
    (measurementFromIlpBytes line.bytes).getD [] = readPart line.measurement := by
  obtain ⟨c, rest, text, stop⟩ := readPart_split line.measurement (tagText_ends line.tags line.fields)
  have inside : ∀ d ∈ readPart line.measurement, (d != ' ' && d != ',') = true :=
    fun d member => List.mem_takeWhile_imp (p := fun d => d != ' ' && d != ',') member
  have name : upTo ' ' (upTo ',' line.text) = readPart line.measurement := by
    rw [Line.text, text, upTo_upTo_comma, List.takeWhile_append_of_pos inside, List.takeWhile_cons, if_neg,
      List.append_nil]
    rcases stop with rfl | rfl <;> decide
  rw [Line.bytes, measurement_asBytes line.newline_not_mem, name]
  split
  · rename_i empty
    exact empty.symm
  · rfl

/-- The key is the value that the grammar gives to the tag exactly when the scan reads the line as having
it, and for lines without escapes it always is. -/
theorem shardKeyFromIlp_iff (line : Line) (tag : Str)
    (readable : line.Unescaped ∨ tag.getLast? ≠ some '\\') :
    (shardKeyFromIlp line.bytes tag = line.keyOf tag ↔ line.ReadsAs tag (line.keyOf tag)) ∧
    (line.Unescaped → line.ReadsAs tag (line.keyOf tag)) :=
  ⟨Line.shardKey_readsAs readable _, fun unescaped => (Line.readsAs_unescaped unescaped tag _).mpr rfl⟩

def symbol : Str := "symbol".toList

/-- `trades,symbol=BTC-USD price=1` -/
def plainLine : Line where
  measurement := "trades".toList
  tags := [(symbol, "BTC-USD".toList)]
  fields := "price=1".toList
  oneLine := by decide

/-- `trades,symbol=BTC\ USD price=1` -/
def escapedSpace : Line := { plainLine with tags := [(symbol, "BTC USD".toList)], oneLine := by decide }

/-- `trades price=1,symbol=2` -/
def tagless : Line := { plainLine with tags := [], fields := "price=1,symbol=2".toList, oneLine := by decide }

theorem plainLine_key :
    shardKeyFromIlp plainLine.bytes symbol = "BTC-USD".toList ∧
      plainLine.ReadsAs symbol "BTC-USD".toList :=
  have plain : plainLine.Unescaped := ⟨by decide, by decide, by decide⟩
  have key := shardKeyFromIlp_iff plainLine symbol (.inl plain)
  ⟨key.1.mpr (key.2 plain), key.2 plain⟩

/-- An escaped space cuts the value short, and a field is taken for the tag of a line without tags. -/
theorem escaped_space_cuts_key :
    shardKeyFromIlp escapedSpace.bytes symbol ≠ escapedSpace.keyOf symbol ∧
    shardKeyFromIlp tagless.bytes symbol ≠ tagless.keyOf symbol := by
  decide

end QuestRouter.Ilp
