import QuestRouter.Data.Pieces
import QuestRouter.Stream.Content

/-!
# Faithful rows

The parser knows no escapes and no quotes. It reads a written line back exactly if nothing had to be escaped, no
string has a comma, and no string of a line without a timestamp has a space.
-/

namespace QuestRouter.Stream
open Text Routing Ilp Data

variable {F : Type} (parseF64 : Str → Option F)

/-- The line is read as the row that it was written from. -/
def Faithful (content : Content) : Prop := parseIlpRow parseF64 (asBytes content.text) = some content.row

/-- The parser can tell where the parts of the line end. -/
structure Content.Unambiguous (content : Content) : Prop where
  named : content.measurement ≠ []
  tagged : content.tags ≠ []
  measurement : Plain content.measurement
  tags : ∀ tag ∈ content.tags, Plain tag.1 ∧ Plain tag.2
  fields : ∀ field ∈ content.fields, Plain field.1
  strings : ∀ field ∈ content.fields, ∀ s, field.2 = .string s →
    ',' ∉ s ∧ (∀ c ∈ s, isQuoted c = false) ∧ (content.timestampNs = none → ' ' ∉ s)

/-! ### Separators in the pieces -/

/-- Characters that no number, no boolean and no escape brings in. -/
def Separator (c : Char) : Prop := c = ',' ∨ c = ' ' ∨ c = '\n'

/-- The text of a string value. -/
def Value.string? : Value → Str
  | string s => s
  | _ => []

def stringOf : IlpField F → Str
  | .string s => s
  | _ => []

theorem stringOf_field (value : Value) : stringOf (value.field : IlpField F) = value.string? := by
  cases value <;> rfl

section Separators
variable {c : Char} (separates : Separator c)
include separates

theorem Separator.ne : c ≠ '\\' ∧ c ≠ '"' ∧ c ≠ '=' ∧ c ≠ replacement := by
  rcases separates with rfl | rfl | rfl <;> decide

theorem count_integer (n : Int64) : (Value.integer n).text.count c = 0 := by
  apply List.count_eq_zero_of_not_mem
  intro member
  rcases List.mem_append.mp member with digit | last
  · rcases mem_decimalInt digit with rfl | digit
    · rcases separates with impossible | impossible | impossible <;> cases impossible
    · rcases separates with rfl | rfl | rfl <;> exact absurd digit (by decide)
  · obtain rfl := List.mem_singleton.mp last
    rcases separates with impossible | impossible | impossible <;> cases impossible

theorem count_word {b : Bool} {word : Str} (spelled : word ∈ spellings b) : word.count c = 0 := by
  have letters : (spellings true ++ spellings false).all (·.all Char.isAlpha) = true := by decide
  have listed : word ∈ spellings true ++ spellings false := by
    cases b with
    | true => exact List.mem_append_left _ spelled
    | false => exact List.mem_append_right _ spelled
  apply List.count_eq_zero_of_not_mem
  intro member
  have letter := List.all_eq_true.mp (List.all_eq_true.mp letters word listed) c member
  rcases separates with rfl | rfl | rfl <;> exact absurd letter (by decide)

theorem count_text (value : Value) : value.text.count c = value.string?.count c := by
  cases value with
  | integer n => exact count_integer separates n
  | bool b word => exact count_word separates word.property
  | string s =>
    obtain ⟨backslash, quote, _⟩ := separates.ne
    rw [Value.text, List.count_cons_of_ne quote.symm, List.count_append, List.count_singleton,
      if_neg (by simpa using quote.symm), escapeFieldString_eq, count_backslashed backslash]
    rfl

theorem count_escapeTag (s : Str) : (Ingest.Nautilus.escapeTag s).count c = s.count c := by
  rw [escapeTag_eq, escape_eq_backslashed, count_backslashed separates.ne.1]

theorem count_tagPiece (tag : Str × Str) : (tagPiece tag).count c = tag.1.count c + tag.2.count c := by
  rw [tagPiece, List.count_append, List.count_cons_of_ne separates.ne.2.2.1.symm, count_escapeTag separates,
    count_escapeTag separates]

theorem count_fieldPiece (field : Str × Value) :
    (fieldPiece field).count c = field.1.count c + field.2.string?.count c := by
  rw [fieldPiece, List.count_append, List.count_cons_of_ne separates.ne.2.2.1.symm, count_escapeTag separates,
    count_text separates]

theorem not_mem_tagPiece (tag : Str × Str) : c ∉ tagPiece tag ↔ c ∉ tag.1 ∧ c ∉ tag.2 := by
  rw [← List.count_eq_zero, ← List.count_eq_zero, ← List.count_eq_zero, count_tagPiece separates]
  exact Nat.add_eq_zero_iff

theorem not_mem_fieldPiece (field : Str × Value) : c ∉ fieldPiece field ↔ c ∉ field.1 ∧ c ∉ field.2.string? := by
  rw [← List.count_eq_zero, ← List.count_eq_zero, ← List.count_eq_zero, count_fieldPiece separates]
  exact Nat.add_eq_zero_iff

/-- What is read as a name or a string was in the piece. -/
theorem count_fieldOf {piece : Str} {field : Str × IlpField F} (read : fieldOf parseF64 piece = some field) :
    field.1.count c + (stringOf field.2).count c ≤ piece.count c := by
  obtain ⟨_, _, apart, fresh⟩ := separates.ne
  unfold fieldOf at read
  split at read
  · rename_i present
    obtain ⟨value, parsed, rfl⟩ := Option.map_eq_some_iff.mp read
    have inside : (stringOf value).count c ≤ (past '=' piece).count c := by
      cases value with
      | string s => exact count_string parseF64 fresh parsed
      | _ => exact Nat.zero_le _
    have whole := congrArg (List.count c) (upTo_past present)
    rw [List.count_append, List.count_cons_of_ne apart.symm] at whole
    dsimp only
    omega
  · cases read

theorem count_fieldsOf (apart : c ≠ ',') (s : Str) :
    ((fieldsOf parseF64 s).map fun field => field.1.count c + (stringOf field.2).count c).sum ≤ s.count c := by
  rw [fieldsOf, ← count_splitOn apart s]
  induction s.splitOn ',' with
  | nil => exact Nat.le_refl 0
  | cons piece pieces ih =>
    rw [List.filterMap_cons, List.map_cons, List.sum_cons]
    cases read : fieldOf parseF64 piece with
    | none => exact Nat.le_add_left_of_le ih
    | some field =>
      have first := count_fieldOf parseF64 separates read
      simp only [List.map_cons, List.sum_cons]
      omega

theorem count_fieldsText (F : Type) (apart : c ≠ ',') (content : Content) :
    content.fieldsText.count c =
      ((content.fields.map fun field => (field.1, (field.2.field : IlpField F))).map
        fun field => field.1.count c + (stringOf field.2).count c).sum := by
  rw [Content.fieldsText, count_intercalate apart, List.map_map, List.map_map]
  congr 2
  funext field
  rw [Function.comp, count_fieldPiece separates, Function.comp, stringOf_field]

end Separators

/-! ### Pieces that are read back -/

theorem tagOf_tagPiece {tag : Str × Str} (noEquals : '=' ∉ tag.1) :
    tagOf (tagPiece tag) = some (escape tag.1, escape tag.2) := by
  have absent : '=' ∉ escape tag.1 := by rwa [mem_escape (by decide)]
  rw [tagPiece, escapeTag_eq, escapeTag_eq, tagOf, if_pos (by simp), upTo_append absent, past_append absent]

/-- A value as it is read: in a string the escapes stay. -/
def Value.read : Value → IlpField F
  | integer n => .integer n.toInt
  | bool b _ => .bool b
  | string s => .string (backslashed isQuoted s)

theorem valueOf_text (value : Value) : valueOf parseF64 value.text = some value.read := by
  cases value with
  | integer n =>
    rw [Value.text, valueOf_integer parseF64 (decimalInt_ne_nil _) (not_mem_decimalInt (by decide)),
      parseI64_decimalInt]
    rfl
  | bool b word => exact valueOf_bool parseF64 word.property
  | string s =>
    rw [Value.text, valueOf_quoted, escapeFieldString_eq]
    rfl

theorem fieldOf_fieldPiece {field : Str × Value} (noEquals : '=' ∉ field.1) :
    fieldOf parseF64 (fieldPiece field) = some (escape field.1, field.2.read) := by
  have absent : '=' ∉ escape field.1 := by rwa [mem_escape (by decide)]
  rw [fieldPiece, escapeTag_eq, fieldOf, if_pos (by simp), upTo_append absent, past_append absent, valueOf_text]
  rfl

theorem read_eq_field_iff {value : Value} :
    (value.read : IlpField F) = value.field ↔ ∀ s, value = .string s → ∀ c ∈ s, isQuoted c = false := by
  cases value with
  | string s =>
    rw [Value.read, Value.field, IlpField.string.injEq, backslashed_eq_self_iff]
    exact ⟨fun each t same => Value.string.inj same ▸ each, fun each => each s rfl⟩
  | _ => simp [Value.read, Value.field]

theorem filterMap_read {α β γ : Type} {f : β → Option γ} {g : α → β} {h : α → γ} {xs : List α}
    (each : ∀ x ∈ xs, f (g x) = some (h x)) : (xs.map g).filterMap f = xs.map h := by
  rw [List.filterMap_map, List.filterMap_eq_map_iff_forall_eq_some]
  exact each

/-! ### The parts of a line -/

namespace Content
variable (content : Content) {c : Char}

def tagsText : Str := [','].intercalate (content.tags.map tagPiece)

variable {content}

theorem text_tagged (tagged : content.tags ≠ []) :
    content.text = escape content.measurement ++
      ',' :: (content.tagsText ++ ' ' :: (content.fieldsText ++ content.timestampText)) := by
  rw [text, flatMap_cons_eq_intercalate ',' tagPiece tagged, escapeTag_eq]
  simp [tagsText]

theorem text_untagged (untagged : content.tags = []) :
    content.text = escape content.measurement ++ ' ' :: (content.fieldsText ++ content.timestampText) := by
  rw [text, untagged, escapeTag_eq]
  simp

theorem not_mem_tagsText (apart : c ≠ ',') (each : ∀ tag ∈ content.tags, c ∉ tagPiece tag) :
    c ∉ content.tagsText := by
  intro member
  obtain ⟨piece, inside, member⟩ := (mem_intercalate apart).mp member
  obtain ⟨tag, there, rfl⟩ := List.mem_map.mp inside
  exact each tag there member

theorem not_mem_fieldsText (apart : c ≠ ',') :
    c ∉ content.fieldsText ↔ ∀ field ∈ content.fields, c ∉ fieldPiece field := by
  rw [fieldsText, mem_intercalate apart]
  constructor
  · intro absent field member inside
    exact absent ⟨fieldPiece field, List.mem_map_of_mem member, inside⟩
  · rintro each ⟨piece, inside, member⟩
    obtain ⟨field, there, rfl⟩ := List.mem_map.mp inside
    exact each field there member

theorem tags_pieces (tagged : content.tags ≠ []) (apart : ∀ tag ∈ content.tags, ',' ∉ tagPiece tag) :
    content.tagsText.splitOn ',' = content.tags.map tagPiece := by
  apply List.splitOn_intercalate
  · intro piece inside
    obtain ⟨tag, there, rfl⟩ := List.mem_map.mp inside
    exact apart tag there
  · simpa using tagged

theorem fields_pieces (apart : ∀ field ∈ content.fields, ',' ∉ fieldPiece field) :
    content.fieldsText.splitOn ',' = content.fields.map fieldPiece := by
  apply List.splitOn_intercalate
  · intro piece inside
    obtain ⟨field, there, rfl⟩ := List.mem_map.mp inside
    exact apart field there
  · simpa using content.hasField

theorem newline_not_mem_timestampText : '\n' ∉ content.timestampText := by
  unfold timestampText
  split
  · rw [List.mem_cons, not_or]
    exact ⟨by decide, not_mem_decimalInt (by decide)⟩
  · exact List.not_mem_nil

theorem newline_not_mem_text : '\n' ∉ content.text := by
  obtain ⟨measurement, tags, fields⟩ := content.oneLine
  have newline : Separator '\n' := .inr (.inr rfl)
  have name : '\n' ∉ Ingest.Nautilus.escapeTag content.measurement := by
    rwa [← List.count_eq_zero, count_escapeTag newline, List.count_eq_zero]
  have tagged : '\n' ∉ content.tags.flatMap fun tag => ',' :: tagPiece tag := by
    intro member
    obtain ⟨tag, inside, member⟩ := List.mem_flatMap.mp member
    rcases List.mem_cons.mp member with impossible | member
    · cases impossible
    · exact (not_mem_tagPiece newline tag).mpr (tags tag inside) member
  have written : '\n' ∉ content.fieldsText := by
    refine (not_mem_fieldsText (by decide)).mpr fun field member => ?_
    obtain ⟨named, valued⟩ := fields field member
    refine (not_mem_fieldPiece newline field).mpr ⟨named, ?_⟩
    cases value : field.2 with
    | string s => exact valued s value
    | _ => exact List.not_mem_nil
  simp [text, name, tagged, written, newline_not_mem_timestampText]

/-! ### What a faithful line is written from -/

theorem faithful_iff :
    Faithful parseF64 content ↔
      (',' ∈ content.text ∧ upTo ',' content.text ≠ []) ∧ rowOf parseF64 content.text = content.row := by
  rw [Faithful, parseIlpRow_asBytes parseF64 newline_not_mem_text]
  split
  · rename_i found
    rw [Option.some.injEq, and_iff_right found]
  · rename_i missing
    constructor
    · intro impossible
      cases impossible
    · intro found
      exact (missing found.1).elim

theorem measurement_read (faithful : Faithful parseF64 content) :
    content.measurement ≠ [] ∧ content.tags ≠ [] ∧ Plain content.measurement := by
  obtain ⟨⟨_, nonempty⟩, same⟩ := (faithful_iff parseF64).mp faithful
  have read : upTo ',' content.text = content.measurement := congrArg IlpRow.measurement same
  have noComma : ',' ∉ escape content.measurement := by
    rw [mem_escape (by decide), ← read]
    exact not_mem_upTo ',' _
  rw [read] at nonempty
  have tagged : content.tags ≠ [] := by
    intro untagged
    -- the space after the measurement would belong to it
    rw [text_untagged untagged, upTo, List.takeWhile_append_of_pos] at read
    · have length := congrArg List.length read
      have longer := length_le_backslashed isSpecial content.measurement
      rw [← escape_eq_backslashed] at longer
      rw [List.takeWhile_cons, if_pos (by decide), List.length_append, List.length_cons] at length
      omega
    · intro c member
      rw [bne_iff_ne]
      rintro rfl
      exact noComma member
  rw [text_tagged tagged, upTo_append noComma] at read
  exact ⟨nonempty, tagged, escape_eq_self_iff.mp read⟩

theorem tagOf_mem {piece : Str} {tag : Str × Str} (read : tagOf piece = some tag) :
    (∀ c, c ∉ piece → c ∉ tag.1 ∧ c ∉ tag.2) ∧ '=' ∉ tag.1 := by
  unfold tagOf at read
  split at read
  · obtain rfl := Option.some.inj read
    refine ⟨fun c absent => ⟨fun member => absent ?_, fun member => absent ?_⟩, not_mem_upTo '=' piece⟩
    · exact (upTo_start '=' piece).subset member
    · exact List.mem_of_mem_drop member
  · cases read

theorem tags_read {rest : Str} (tagged : content.tags ≠ [])
    (same : ((upTo ' ' (content.tagsText ++ ' ' :: rest)).splitOn ',').filterMap tagOf = content.tags) :
    ∀ tag ∈ content.tags, Plain tag.1 ∧ Plain tag.2 := by
  have apart : ∀ tag ∈ content.tags, ',' ∉ tagPiece tag ∧ ' ' ∉ tagPiece tag ∧ '=' ∉ tag.1 := by
    intro tag member
    rw [← same] at member
    obtain ⟨piece, inside, read⟩ := List.mem_filterMap.mp member
    obtain ⟨kept, noEquals⟩ := tagOf_mem read
    have noSpace : ' ' ∉ piece := fun member => not_mem_upTo ' ' _ (mem_of_mem_piece inside member)
    exact ⟨(not_mem_tagPiece (.inl rfl) tag).mpr (kept ',' (not_mem_piece inside)),
      (not_mem_tagPiece (.inr (.inl rfl)) tag).mpr (kept ' ' noSpace), noEquals⟩
  have noSpace : ' ' ∉ content.tagsText := not_mem_tagsText (by decide) fun tag member => (apart tag member).2.1
  have pieces := tags_pieces tagged fun tag member => (apart tag member).1
  rw [upTo_append noSpace, pieces, filterMap_read fun tag member => tagOf_tagPiece (apart tag member).2.2] at same
  have kept : content.tags.map (fun tag => (escape tag.1, escape tag.2)) = content.tags.map id := by
    rw [same, List.map_id]
  intro tag member
  obtain ⟨name, value⟩ := Prod.mk.inj (List.map_inj_left.mp kept tag member)
  exact ⟨escape_eq_self_iff.mp name, escape_eq_self_iff.mp value⟩

theorem fieldOf_mem {piece : Str} {field : Str × IlpField F} (read : fieldOf parseF64 piece = some field) :
    '=' ∉ field.1 := by
  unfold fieldOf at read
  split at read
  · obtain ⟨value, _, rfl⟩ := Option.map_eq_some_iff.mp read
    exact not_mem_upTo '=' piece
  · cases read

theorem fields_read (same : fieldsOf parseF64 content.fieldsText = content.row.fields) :
    ∀ field ∈ content.fields, Plain field.1 ∧
      ∀ s, field.2 = .string s → ',' ∉ s ∧ ∀ c ∈ s, isQuoted c = false := by
  have apart : ∀ field ∈ content.fields, (',' ∉ field.1 ∧ ',' ∉ field.2.string?) ∧ '=' ∉ field.1 := by
    intro field member
    have there : (field.1, field.2.field) ∈ fieldsOf parseF64 content.fieldsText := by
      rw [same]
      exact List.mem_map_of_mem member
    obtain ⟨piece, inside, read⟩ := List.mem_filterMap.mp there
    have counted := count_fieldOf parseF64 (.inl rfl) read
    rw [List.count_eq_zero_of_not_mem (not_mem_piece inside), Nat.le_zero, Nat.add_eq_zero_iff, List.count_eq_zero,
      List.count_eq_zero, stringOf_field] at counted
    exact ⟨counted, fieldOf_mem parseF64 read⟩
  have pieces := fields_pieces fun field member => (not_mem_fieldPiece (.inl rfl) field).mpr (apart field member).1
  rw [fieldsOf, pieces, filterMap_read fun field member => fieldOf_fieldPiece parseF64 (apart field member).2] at same
  intro field member
  obtain ⟨name, value⟩ := Prod.mk.inj (List.map_inj_left.mp same field member)
  refine ⟨escape_eq_self_iff.mp name, fun s string => ⟨?_, read_eq_field_iff.mp value s string⟩⟩
  have noComma := (apart field member).1.2
  rwa [string] at noComma

/-- Without a timestamp, what follows the last space of the fields would be taken for one. -/
theorem sections_read
    (same : (commaParts (splitFields (asBytes (content.fieldsText ++ content.timestampText))).1).filterMap
      (parseField parseF64) = content.row.fields) :
    fieldsOf parseF64 content.fieldsText = content.row.fields ∧
      (content.timestampNs = none → ' ' ∉ content.fieldsText) := by
  cases stamped : content.timestampNs with
  | some n =>
    have noSpace : ' ' ∉ decimalInt n.toInt := not_mem_decimalInt (by decide)
    rw [timestampText, stamped, splitFields_space _ noSpace, parseFields_asBytes] at same
    refine ⟨same, fun impossible => ?_⟩
    cases impossible
  | none =>
    rw [timestampText, stamped, List.append_nil] at same
    have noSpace : ' ' ∉ content.fieldsText := by
      intro spaced
      obtain ⟨before, last, split, noSpace⟩ := List.eq_append_cons_of_mem (List.mem_reverse.mpr spaced)
      have split : content.fieldsText = last.reverse ++ ' ' :: before.reverse := by
        rw [← List.reverse_reverse content.fieldsText, split]
        simp
      have separates : Separator ' ' := .inr (.inl rfl)
      have counted := count_fieldsText separates F (by decide) content
      rw [split, splitFields_space _ (by rwa [List.mem_reverse]), parseFields_asBytes] at same
      have fewer := count_fieldsOf parseF64 separates (by decide) last.reverse
      rw [same, row, ← counted, split, List.count_append, List.count_cons_self] at fewer
      omega
    rw [splitFields_no_space noSpace, parseFields_asBytes] at same
    exact ⟨same, fun _ => noSpace⟩

/-! ### What an unambiguous line is read as -/

theorem not_mem_of_plain (plain : ∀ tag ∈ content.tags, Plain tag.1 ∧ Plain tag.2) (separates : Separator c)
    (special : isSpecial c = true) : ∀ tag ∈ content.tags, c ∉ tagPiece tag := by
  intro tag member
  obtain ⟨name, value⟩ := plain tag member
  exact (not_mem_tagPiece separates tag).mpr ⟨name.not_mem special, value.not_mem special⟩

theorem space_not_mem_tagsText (plain : ∀ tag ∈ content.tags, Plain tag.1 ∧ Plain tag.2) : ' ' ∉ content.tagsText :=
  not_mem_tagsText (by decide) (not_mem_of_plain plain (.inr (.inl rfl)) (by decide))

theorem Unambiguous.tags_eq (clear : content.Unambiguous) :
    (content.tagsText.splitOn ',').filterMap tagOf = content.tags := by
  have noEquals : ∀ tag ∈ content.tags, '=' ∉ tag.1 := fun tag member =>
    (clear.tags tag member).1.not_mem (by decide)
  rw [tags_pieces clear.tagged (not_mem_of_plain clear.tags (.inl rfl) (by decide)),
    filterMap_read fun tag member => tagOf_tagPiece (noEquals tag member)]
  conv_rhs => rw [← List.map_id content.tags]
  apply List.map_congr_left
  intro tag member
  obtain ⟨name, value⟩ := clear.tags tag member
  rw [escape_plain name, escape_plain value]
  rfl

theorem Unambiguous.not_mem_string (clear : content.Unambiguous) {field : Str × Value}
    (member : field ∈ content.fields) :
    ',' ∉ field.2.string? ∧ (content.timestampNs = none → ' ' ∉ field.2.string?) := by
  cases value : field.2 with
  | string s =>
    obtain ⟨noComma, _, noSpace⟩ := clear.strings field member s value
    exact ⟨noComma, noSpace⟩
  | _ => exact ⟨List.not_mem_nil, fun _ => List.not_mem_nil⟩

theorem Unambiguous.fieldsOf_eq (clear : content.Unambiguous) :
    fieldsOf parseF64 content.fieldsText = content.row.fields := by
  have noComma : ∀ field ∈ content.fields, ',' ∉ fieldPiece field := fun field member =>
    (not_mem_fieldPiece (.inl rfl) field).mpr
      ⟨(clear.fields field member).not_mem (by decide), (clear.not_mem_string member).1⟩
  have noEquals : ∀ field ∈ content.fields, '=' ∉ field.1 := fun field member =>
    (clear.fields field member).not_mem (by decide)
  rw [fieldsOf, fields_pieces noComma,
    filterMap_read fun field member => fieldOf_fieldPiece parseF64 (noEquals field member)]
  apply List.map_congr_left
  intro field member
  have value : (field.2.read : IlpField F) = field.2.field :=
    read_eq_field_iff.mpr fun s string => (clear.strings field member s string).2.1
  rw [escape_plain (clear.fields field member), value]

theorem Unambiguous.splitFields_eq (clear : content.Unambiguous) :
    splitFields (asBytes (content.fieldsText ++ content.timestampText)) =
      (asBytes content.fieldsText, content.timestampNs.map Int64.toInt) := by
  cases stamped : content.timestampNs with
  | some n =>
    have noSpace : ' ' ∉ decimalInt n.toInt := not_mem_decimalInt (by decide)
    rw [timestampText, stamped, splitFields_space _ noSpace, parseI64_decimalInt]
    rfl
  | none =>
    have noSpace : ' ' ∉ content.fieldsText := by
      refine (not_mem_fieldsText (by decide)).mpr fun field member => ?_
      exact (not_mem_fieldPiece (.inr (.inl rfl)) field).mpr
        ⟨(clear.fields field member).not_mem (by decide), (clear.not_mem_string member).2 stamped⟩
    rw [timestampText, stamped, List.append_nil, splitFields_no_space noSpace]
    rfl

theorem rest_eq (tagged : content.tags ≠ []) (plain : Plain content.measurement) :
    upTo ',' content.text = content.measurement ∧
      past ',' content.text = content.tagsText ++ ' ' :: (content.fieldsText ++ content.timestampText) := by
  have noComma : ',' ∉ content.measurement := plain.not_mem (by decide)
  rw [text_tagged tagged, escape_plain plain]
  exact ⟨upTo_append noComma _, past_append noComma _⟩

theorem Unambiguous.faithful (clear : content.Unambiguous) : Faithful parseF64 content := by
  obtain ⟨name, rest⟩ := rest_eq clear.tagged clear.measurement
  have noSpace := space_not_mem_tagsText clear.tags
  have present : ',' ∈ content.text := by
    rw [text_tagged clear.tagged]
    exact List.mem_append_right _ List.mem_cons_self
  refine (faithful_iff parseF64).mpr ⟨⟨present, by rw [name]; exact clear.named⟩, ?_⟩
  rw [rowOf, name, rest, upTo_append noSpace, past_append noSpace, clear.splitFields_eq]
  simp only
  rw [clear.tags_eq, parseFields_asBytes, clear.fieldsOf_eq]
  rfl

theorem unambiguous_of_faithful (faithful : Faithful parseF64 content) : content.Unambiguous := by
  obtain ⟨named, tagged, plain⟩ := measurement_read parseF64 faithful
  obtain ⟨_, same⟩ := (faithful_iff parseF64).mp faithful
  obtain ⟨_, rest⟩ := rest_eq tagged plain
  have tagsSame := congrArg IlpRow.tags same
  have fieldsSame := congrArg IlpRow.fields same
  simp only [rowOf, rest] at tagsSame fieldsSame
  have tags := tags_read tagged tagsSame
  rw [past_append (space_not_mem_tagsText tags)] at fieldsSame
  obtain ⟨fieldsSame, unspaced⟩ := sections_read parseF64 fieldsSame
  have fields := fields_read parseF64 fieldsSame
  refine ⟨named, tagged, plain, tags, fun field member => (fields field member).1, fun field member s string => ?_⟩
  obtain ⟨noComma, unquoted⟩ := (fields field member).2 s string
  refine ⟨noComma, unquoted, fun stamped => ?_⟩
  have absent := (not_mem_fieldsText (by decide)).mp (unspaced stamped) field member
  have outside := ((not_mem_fieldPiece (.inr (.inl rfl)) field).mp absent).2
  rwa [string] at outside

end Content

theorem faithful_iff_unambiguous (content : Content) : Faithful parseF64 content ↔ content.Unambiguous :=
  ⟨Content.unambiguous_of_faithful parseF64, Content.Unambiguous.faithful parseF64⟩

/-- `trades,symbol=ETH trade_id="a,b" 9` -/
def commaInString : Content where
  measurement := "trades".toList
  tags := [("symbol".toList, "ETH".toList)]
  fields := [("trade_id".toList, .string "a,b".toList)]
  timestampNs := some 9
  hasField := List.cons_ne_nil _ _
  oneLine := by
    refine ⟨by decide, by decide, fun field member => ?_⟩
    obtain rfl := List.mem_singleton.mp member
    exact ⟨by decide, fun s same => by obtain rfl := Value.string.inj same; decide⟩

/-- A comma in a string ends the field there. -/
theorem comma_cuts_string : ¬ Faithful parseI64 commaInString := by
  intro faithful
  have text : commaInString.text = "trades,symbol=ETH trade_id=\"a,b\" 9".toList := by decide +kernel
  have parsed : parseIlpRow parseI64 (asBytes commaInString.text) =
      some ⟨"trades".toList, [("symbol".toList, "ETH".toList)], [("trade_id".toList, .string [])], some 9⟩ := by
    rw [text]
    decide +kernel
  exact absurd (parsed.symm.trans faithful) (by decide +kernel)

end QuestRouter.Stream
