import QuestRouter.Data.Pieces
import QuestRouter.Ilp.Line
import QuestRouter.Text.Quoting

/-!
# Reading a line

A line as the rules of the line protocol read it: cut only at spaces, commas and equals signs that are bare, and
unescaped afterwards. A quotation mark has a meaning in the field set only.
-/

namespace QuestRouter.Ilp
open Text

/-- The values of fields are as they stand in the line. -/
structure Reading where
  measurement : Str
  tags : List (Str × Str)
  fields : List (Str × Str)
  timestamp : Str
  deriving DecidableEq, Repr

def readEntry (marks : Bool) (piece : Str) : Option (Str × Str) :=
  match Scan.cut marks (· == '=') {} piece with
  | (name, _ :: value) => some (unescape name, value)
  | (_, []) => none

def readTag (piece : Str) : Option (Str × Str) :=
  (readEntry false piece).map fun (name, value) => (name, unescape value)

def readLine (line : Str) : Option Reading :=
  let (names, rest) := Scan.cut false (· == ' ') {} line
  let (fields, timestamp) := Scan.cut true (· == ' ') {} (rest.drop 1)
  match Scan.split false (· == ',') {} names with
  | measurement :: tags => do
    let tags ← tags.mapM readTag
    let fields ← (Scan.split true (· == ',') {} fields).mapM (readEntry true)
    return { measurement := unescape measurement, tags, fields, timestamp := timestamp.drop 1 }
  | [] => none

/-- The text between the quotation marks of a value. -/
def quotedText : Str → Option Str
  | '"' :: rest => if rest.getLast? = some '"' then some (unescape rest.dropLast) else none
  | _ => none

def Reading.quotedFields (reading : Reading) : List (Str × Str) :=
  reading.fields.filterMap fun (name, value) => (quotedText value).map fun s => (name, s)

/-! ### Texts that are read as they were written -/

def ends (c : Char) : Bool := c == ',' || c == ' '

/-- A measurement that ends where its text does. -/
def Closed (measurement : Str) : Prop := Scan.passes false ends {} measurement = some {}

/-- A value that ends where its text does. -/
def ClosedValue (value : Str) : Prop := Scan.passes true ends {} value = some {}

instance (measurement : Str) : Decidable (Closed measurement) := inferInstanceAs (Decidable (_ = _))

def fieldText (field : Str × Str) : Str := escape field.1 ++ '=' :: field.2

def fieldsText (fields : List (Str × Str)) : Str := [','].intercalate (fields.map fieldText)

theorem ends_of_comma (c : Char) (comma : (c == ',') = true) : ends c = true := by rw [ends, comma, Bool.true_or]

theorem ends_of_space (c : Char) (space : (c == ' ') = true) : ends c = true := by rw [ends, space, Bool.or_true]

theorem isSpecial_of_ends {c : Char} (found : ends c = true) : isSpecial c = true := by
  rcases Bool.or_eq_true_iff.mp found with comma | space
  · rw [beq_iff_eq.mp comma]
    rfl
  · rw [beq_iff_eq.mp space]
    rfl

theorem passes_escape {marks : Bool} {delimiter : Char → Bool} {s : Str}
    (delimiters : ∀ c, delimiter c = true → isSpecial c = true) (ordinary : delimiter '\\' = false)
    (mark : marks = true → '"' ∉ s) : Scan.passes marks delimiter {} (escape s) = some {} :=
  Scan.passes_backslashed rfl ordinary (fun _ => delimiters) fun counts inside => (mark counts inside).elim

theorem closed_escape (s : Str) : Closed (escape s) := passes_escape (fun _ => isSpecial_of_ends) rfl nofun

theorem unescape_escape (s : Str) : unescape (escape s) = s := unescape_backslashed rfl s

/-- A name is cut off at the equals sign after it. -/
theorem readEntry_text {marks : Bool} {name : Str} (mark : marks = true → '"' ∉ name) (value : Str) :
    readEntry marks (escape name ++ '=' :: value) = some (name, value) := by
  have equals : ∀ c : Char, (c == '=') = true → isSpecial c = true := by
    intro c same
    rw [beq_iff_eq.mp same]
    rfl
  rw [readEntry, Scan.cut_at (passes_escape equals rfl mark) rfl]
  dsimp only
  rw [unescape_escape]

theorem passes_entry {marks : Bool} {name value : Str} (mark : marks = true → '"' ∉ name)
    (closed : Scan.passes marks ends {} value = some {}) :
    Scan.passes marks ends {} (escape name ++ '=' :: value) = some {} := by
  have equals : Scan.passes marks ends {} ['='] = some {} := by
    cases marks <;> rfl
  rw [Scan.passes_trans (passes_escape (fun _ => isSpecial_of_ends) rfl mark), ← List.singleton_append,
    Scan.passes_trans equals]
  exact closed

def tagPiece (tag : Str × Str) : Str := escape tag.1 ++ '=' :: escape tag.2

theorem tagText_eq (measurement : Str) (tags : List (Str × Str)) (rest : Str) :
    measurement ++ tagText tags rest = [','].intercalate (measurement :: tags.map tagPiece) ++ ' ' :: rest := by
  rw [tagText, ← List.append_assoc]
  congr 1
  cases tags with
  | nil => simp
  | cons tag tags =>
    rw [List.map_cons, List.intercalate_cons_cons, ← List.map_cons, List.append_assoc, List.singleton_append,
      ← Data.flatMap_cons_eq_intercalate ',' tagPiece (List.cons_ne_nil tag tags)]
    rfl

theorem readTag_piece (tag : Str × Str) : readTag (tagPiece tag) = some tag := by
  rw [readTag, tagPiece, readEntry_text Bool.false_ne_true.elim, Option.map_some]
  dsimp only
  rw [unescape_escape]

theorem closed_tagPiece (tag : Str × Str) : Closed (tagPiece tag) := passes_entry nofun (closed_escape tag.2)

theorem mapM_map {α β : Type} {f : α → β} {g : β → Option α} {xs : List α} (back : ∀ x ∈ xs, g (f x) = some x) :
    (xs.map f).mapM g = some xs := by
  induction xs with
  | nil => rfl
  | cons x xs ih =>
    obtain ⟨here, later⟩ := List.forall_mem_cons.mp back
    rw [List.map_cons, List.mapM_cons, here, ih later]
    rfl

/-- A line is read as what it was written from, whatever its tags are. -/
theorem readLine_text {measurement : Str} (closed : Closed measurement) (tags : List (Str × Str))
    {fields : List (Str × Str)} (some : fields ≠ []) (named : ∀ field ∈ fields, '"' ∉ field.1)
    (values : ∀ field ∈ fields, ClosedValue field.2) (timestamp : Str) :
    readLine (measurement ++ tagText tags (fieldsText fields ++ ' ' :: timestamp)) =
      .some { measurement := unescape measurement, tags, fields, timestamp } := by
  have heads : ∀ piece ∈ measurement :: tags.map tagPiece, Closed piece := by
    rw [List.forall_mem_cons, List.forall_mem_map]
    exact ⟨closed, fun tag _ => closed_tagPiece tag⟩
  have pieces : ∀ piece ∈ fields.map fieldText, ClosedValue piece := by
    rw [List.forall_mem_map]
    exact fun field member => passes_entry (fun _ => named field member) (values field member)
  have names := Scan.passes_intercalate (d := ',') rfl fun piece member =>
    Scan.passes_fewer ends_of_space (heads piece member)
  have body := Scan.passes_intercalate (d := ',') rfl fun piece member =>
    Scan.passes_fewer ends_of_space (pieces piece member)
  have first : Scan.split false (· == ',') {} ([','].intercalate (measurement :: tags.map tagPiece)) =
      measurement :: tags.map tagPiece :=
    Scan.split_intercalate rfl (List.cons_ne_nil _ _) fun piece member =>
      Scan.passes_fewer ends_of_comma (heads piece member)
  have second : Scan.split true (· == ',') {} ([','].intercalate (fields.map fieldText)) = fields.map fieldText :=
    Scan.split_intercalate rfl (by simpa using some) fun piece member =>
      Scan.passes_fewer ends_of_comma (pieces piece member)
  rw [tagText_eq, readLine, Scan.cut_at names rfl]
  dsimp only
  rw [List.drop_one, List.tail_cons, fieldsText, Scan.cut_at body rfl]
  dsimp only
  rw [first, second]
  dsimp only
  rw [mapM_map fun tag _ => readTag_piece tag,
    mapM_map (f := fieldText) fun field member => readEntry_text (fun _ => named field member) field.2]
  rfl

end QuestRouter.Ilp
