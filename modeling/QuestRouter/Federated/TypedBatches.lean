import QuestRouter.Data.Checked
import QuestRouter.Federated.PgTypes
import QuestRouter.Federated.RowCells

/-!
# Batches from shards

Both ways to build a batch give Arrow the same arrays: for each column of the schema the cells of the PG column that
has its name. Arrow takes the arrays if their types are the schema's, which they are but for columns with a time
zone.
-/

namespace QuestRouter.Federated
open Text Data

variable {F32 F64 : Type}

/-! ### Values of arrays -/

inductive Value (F32 F64 : Type) where
  | boolean (b : Bool)
  | int16 (n : Int16)
  | int32 (n : Int32)
  | int64 (n : Int64)
  | float32 (x : F32)
  | float64 (x : F64)
  | date32 (days : Int32)
  | timestampMicrosecond (micros : Int64)
  | binary (bytes : Bytes)
  | utf8 (s : Str)

def ArrayRef.values : ArrayRef F32 F64 → List (Option (Value F32 F64))
  | .boolean values => values.map (·.map .boolean)
  | .int16 values => values.map (·.map .int16)
  | .int32 values => values.map (·.map .int32)
  | .int64 values => values.map (·.map .int64)
  | .float32 values => values.map (·.map .float32)
  | .float64 values => values.map (·.map .float64)
  | .date32 values => values.map (·.map .date32)
  | .timestampMicrosecond values => values.map (·.map .timestampMicrosecond)
  | .binary values => values.map (·.map .binary)
  | .string values => values.map (·.map .utf8)

/-- What a cell is in a column of a type. -/
def typedParse (p : Parsers F32 F64) : DataType → Str → Option (Value F32 F64)
  | .boolean, s => (parseBool s).map .boolean
  | .int16, s => (parseSigned 16 s).map fun n => .int16 (Int16.ofInt n)
  | .int32, s => (parseSigned 32 s).map fun n => .int32 (Int32.ofInt n)
  | .int64, s => (parseSigned 64 s).map fun n => .int64 (Int64.ofInt n)
  | .float32, s => (p.f32 s).map .float32
  | .float64, s => (p.f64 s).map .float64
  | .date32, s => (parseDate32 p s).map .date32
  | .timestamp .microsecond tz, s => (parseTimestampMicros p s tz.isSome).map .timestampMicrosecond
  | .binary, s => (parseBytea p s).map .binary
  | _, s => some (.utf8 s)

theorem buildArray_values (p : Parsers F32 F64) (dataType : DataType) (cells : List (Option Str)) :
    (buildArray p dataType cells).values = cells.map (·.bind (typedParse p dataType)) := by
  have read : ∀ {α β : Type} (parse : Str → Option α) (value : α → β),
      (cells.map (·.bind parse)).map (·.map value) = cells.map (·.bind fun s => (parse s).map value) := by
    intro α β parse value
    rw [List.map_map]
    apply List.map_congr_left
    intro cell _
    exact Option.map_bind
  have text : cells.map (·.map (@Value.utf8 F32 F64)) =
      cells.map (·.bind fun s => some (.utf8 s)) := by
    apply List.map_congr_left
    intro cell _
    exact Option.map_eq_bind
  cases dataType with
  | int16 => exact (read _ _).trans (by simp only [Option.map_map]; rfl)
  | int32 => exact (read _ _).trans (by simp only [Option.map_map]; rfl)
  | int64 => exact (read _ _).trans (by simp only [Option.map_map]; rfl)
  | timestamp unit tz =>
    cases unit with
    | microsecond => exact read _ _
    | _ => exact text
  | list | largeList | utf8 | other => exact text
  | _ => exact read _ _

/-! ### The index of the PG columns -/

/-- Of the fields with a name the last one, as it is the one that stays in the index. -/
def lastNamed (fields : List PgField) (name : Str) : Option PgField :=
  fields.reverse.find? fun f => eqIgnoreAsciiCase f.name name

theorem buildPgFieldIndex_concat (fields : List PgField) (f : PgField) (k : Str) :
    HashMap.get (buildPgFieldIndex (fields ++ [f])) k =
      if k = toAsciiLowercase f.name then some fields.length else HashMap.get (buildPgFieldIndex fields) k := by
  have last : buildPgFieldIndex (fields ++ [f]) =
      AList.insert (toAsciiLowercase f.name) fields.length (buildPgFieldIndex fields) := by
    simp [buildPgFieldIndex, HashMap.collect, List.zipIdx_append, List.zipIdx_cons]
  rw [last]
  split
  · rename_i same
    rw [same, HashMap.get_insert]
  · rename_i different
    exact HashMap.get_insert_ne _ _ different

theorem buildPgFieldIndex_sound {fields : List PgField} {k : Str} {idx : Nat}
    (found : HashMap.get (buildPgFieldIndex fields) k = some idx) :
    ∃ f, fields[idx]? = some f ∧ toAsciiLowercase f.name = k := by
  induction fields using List.reverseRecOn with
  | nil => cases found
  | append_singleton fields f ih =>
    rw [buildPgFieldIndex_concat] at found
    split at found
    · rename_i same
      cases found
      exact ⟨f, List.getElem?_concat_length, same.symm⟩
    · obtain ⟨g, there, name⟩ := ih found
      have inside := (List.getElem?_eq_some_iff.mp there).1
      exact ⟨g, by rw [List.getElem?_append_left inside, there], name⟩

/-- The index leads to the last field with the name. -/
theorem buildPgFieldIndex_named (fields : List PgField) (name : Str) :
    ((HashMap.get (buildPgFieldIndex fields) (toAsciiLowercase name)).bind fun idx => fields[idx]?) =
      lastNamed fields name := by
  induction fields using List.reverseRecOn with
  | nil => rfl
  | append_singleton fields f ih =>
    rw [buildPgFieldIndex_concat, lastNamed, List.reverse_append, List.reverse_singleton, List.singleton_append]
    by_cases same : toAsciiLowercase name = toAsciiLowercase f.name
    · have here : eqIgnoreAsciiCase f.name name = true := eqIgnoreAsciiCase_iff.mpr same.symm
      rw [if_pos same, List.find?_cons, here]
      exact List.getElem?_concat_length
    · have other : eqIgnoreAsciiCase f.name name = false := by
        rw [← Bool.not_eq_true, eqIgnoreAsciiCase_iff]
        exact Ne.symm same
      rw [if_neg same, List.find?_cons, other]
      show _ = lastNamed fields name
      rw [← ih]
      cases found : HashMap.get (buildPgFieldIndex fields) (toAsciiLowercase name) with
      | none => rfl
      | some idx =>
        obtain ⟨g, there, _⟩ := buildPgFieldIndex_sound found
        exact List.getElem?_append_left (List.getElem?_eq_some_iff.mp there).1

/-- No two fields have one name. -/
def DistinctNames (fields : List PgField) : Prop := (fields.map fun f => toAsciiLowercase f.name).Nodup

theorem buildPgFieldIndex_distinct {fields : List PgField} (distinct : DistinctNames fields) {j : Nat} {f : PgField}
    (there : fields[j]? = some f) : HashMap.get (buildPgFieldIndex fields) (toAsciiLowercase f.name) = some j := by
  have named : lastNamed fields f.name ≠ none := by
    rw [lastNamed, Ne, List.find?_eq_none]
    intro unnamed
    exact unnamed f (List.mem_reverse.mpr (List.mem_of_getElem? there)) (eqIgnoreAsciiCase_refl f.name)
  rw [← buildPgFieldIndex_named] at named
  cases found : HashMap.get (buildPgFieldIndex fields) (toAsciiLowercase f.name) with
  | none =>
    rw [found] at named
    exact (named rfl).elim
  | some idx =>
    obtain ⟨g, also, name⟩ := buildPgFieldIndex_sound found
    have same : (fields.map fun f => toAsciiLowercase f.name)[idx]? =
        (fields.map fun f => toAsciiLowercase f.name)[j]? := by
      rw [List.getElem?_map, List.getElem?_map, also, there, Option.map_some, Option.map_some, name]
    have inside : idx < (fields.map fun f => toAsciiLowercase f.name).length := by
      rw [List.length_map]
      exact (List.getElem?_eq_some_iff.mp also).1
    rw [(List.getElem?_inj inside distinct).mp same]

/-! ### The arrays of a batch -/

/-- A row's cell for a column of the schema. -/
def indexed (index : HashMap Str Nat) (name : Str) (cells : List (Option Str)) : Option Str :=
  (HashMap.get index (toAsciiLowercase name)).bind fun idx => cells[idx]?.join

/-- The type that a column is read with. -/
def columnType (fields : List PgField) (field : Field) : DataType :=
  ((lastNamed fields field.name).map fun f => pgTypeToArrow f.datatype).getD field.dataType

/-- The arrays of a batch, from what is a row's cell for the name of a column. -/
def columnArrays (p : Parsers F32 F64) (fields : List PgField) (schema : Schema) (rows : List (Str → Option Str)) :
    List (ArrayRef F32 F64) :=
  schema.map fun field => buildArray p (columnType fields field) (rows.map fun row => row field.name)

/-- The loop over the rows puts their cells into the columns. -/
theorem foldl_pushRow (schema : Schema) (index : HashMap Str Nat) (rows : List WireRow) :
    rows.foldl (pushRow schema index) (schema.map fun _ => []) =
      schema.map fun field => rows.map fun row => indexed index field.name (decodeRowCellRefs row) := by
  induction rows using List.reverseRecOn with
  | nil => rfl
  | append_singleton rows row ih =>
    rw [List.foldl_append, List.foldl_cons, List.foldl_nil, ih, pushRow]
    dsimp only
    rw [List.zipWith_map_left, List.zipWith_self]
    apply List.map_congr_left
    intro field _
    rw [List.map_append, List.map_singleton]
    rfl

variable (p : Parsers F32 F64) {B : Type} (arrow : RecordBatches F32 F64 B)

theorem pgRows_eq (schema : Schema) (fields : List PgField) (rows : List WireRow) :
    pgRowsToTypedBatchForSchema p arrow schema fields (buildPgFieldIndex fields) rows =
      arrow.tryNew schema (columnArrays p fields schema
        (rows.map fun row name => indexed (buildPgFieldIndex fields) name (decodeRowCellRefs row))) := by
  rw [pgRowsToTypedBatchForSchema]
  dsimp only
  rw [foldl_pushRow, List.zipWith_map_right, List.zipWith_self, columnArrays]
  congr 1
  apply List.map_congr_left
  intro field _
  rw [buildPgFieldIndex_named, columnType, List.map_map]
  rfl

theorem rows_eq (schema : Schema) (fields : List PgField) (rows : List (List (Option Str))) :
    rowsToTypedBatchForSchema p arrow schema fields rows =
      arrow.tryNew schema (columnArrays p fields schema
        (rows.map fun cells name => indexed (buildPgFieldIndex fields) name cells)) := by
  rw [rowsToTypedBatchForSchema]
  dsimp only
  congr 1
  apply List.map_congr_left
  intro field _
  rw [← buildPgFieldIndex, buildPgFieldIndex_named, columnType, List.map_map]
  rfl

/-- As many cells as there are fields are enough. -/
theorem indexed_firstCells (fields : List PgField) (name : Str) (cells : List (Option Str)) :
    indexed (buildPgFieldIndex fields) name (firstCells fields.length cells) =
      indexed (buildPgFieldIndex fields) name cells := by
  unfold indexed
  cases found : HashMap.get (buildPgFieldIndex fields) (toAsciiLowercase name) with
  | none => rfl
  | some idx =>
    obtain ⟨f, there, _⟩ := buildPgFieldIndex_sound found
    have inside := (List.getElem?_eq_some_iff.mp there).1
    show (firstCells fields.length cells)[idx]?.join = cells[idx]?.join
    rw [firstCells_get inside]
    rfl

/-! ### What Arrow does -/

/-- What is documented of record batches: a batch has the arrays as they are, at least one and all of its length. With
columns that may be null, arrays are taken exactly if there is one for each column and of its type, and they have one
length. -/
structure RecordBatches.Documented (arrow : RecordBatches F32 F64 B) : Prop where
  built : ∀ {schema arrays batch}, arrow.tryNew schema arrays = .ok batch →
    arrow.columns batch = arrays ∧ arrays ≠ [] ∧ ∀ array ∈ arrays, array.values.length = arrow.numRows batch
  accepts : ∀ {schema : Schema} {arrays}, schema ≠ [] → (∀ field ∈ schema, field.nullable = true) →
    ((∃ batch, arrow.tryNew schema arrays = .ok batch) ↔
      List.Forall₂ (fun field array => array.dataType = field.dataType) schema arrays ∧
        ∃ n, ∀ array ∈ arrays, array.values.length = n)

/-- A batch has a row for each of these rows, and its columns are aligned with theirs by name. -/
structure Aligned (p : Parsers F32 F64) (arrow : RecordBatches F32 F64 B) (schema : Schema) (fields : List PgField)
    (rows : List (List (Option Str))) (batch : B) : Prop where
  numRows : arrow.numRows batch = rows.length
  numColumns : (arrow.columns batch).length = schema.length
  present : ∀ {c : Nat} {field : Field} {array}, schema[c]? = some field → (arrow.columns batch)[c]? = some array →
    ∀ {j : Nat} {f : PgField}, fields[j]? = some f → eqIgnoreAsciiCase f.name field.name = true →
      ∀ {r : Nat} {cells}, rows[r]? = some cells →
        array.values[r]? = some (cells[j]?.join.bind (typedParse p (pgTypeToArrow f.datatype)))
  absent : ∀ {c : Nat} {field : Field} {array}, schema[c]? = some field → (arrow.columns batch)[c]? = some array →
    (∀ f ∈ fields, eqIgnoreAsciiCase f.name field.name = false) →
      ∀ {r : Nat} {cells}, rows[r]? = some cells → array.values[r]? = some none

section
variable {p} {arrow}

theorem lastNamed_distinct {fields : List PgField} (distinct : DistinctNames fields) {j : Nat} {f : PgField}
    (there : fields[j]? = some f) {name : Str} (named : eqIgnoreAsciiCase f.name name = true) :
    HashMap.get (buildPgFieldIndex fields) (toAsciiLowercase name) = some j ∧ lastNamed fields name = some f := by
  have index : HashMap.get (buildPgFieldIndex fields) (toAsciiLowercase name) = some j := by
    rw [← eqIgnoreAsciiCase_iff.mp named]
    exact buildPgFieldIndex_distinct distinct there
  refine ⟨index, ?_⟩
  rw [← buildPgFieldIndex_named, index]
  exact there

theorem lastNamed_none {fields : List PgField} {name : Str}
    (unnamed : ∀ f ∈ fields, eqIgnoreAsciiCase f.name name = false) :
    HashMap.get (buildPgFieldIndex fields) (toAsciiLowercase name) = none := by
  cases found : HashMap.get (buildPgFieldIndex fields) (toAsciiLowercase name) with
  | none => rfl
  | some idx =>
    obtain ⟨f, there, same⟩ := buildPgFieldIndex_sound found
    have named := unnamed f (List.mem_of_getElem? there)
    rw [eqIgnoreAsciiCase_iff.mpr same] at named
    cases named

theorem columnArrays_get {schema : Schema} {fields : List PgField} {rows : List (Str → Option Str)} {c : Nat}
    {field : Field} (there : schema[c]? = some field) :
    (columnArrays p fields schema rows)[c]? =
      some (buildArray p (columnType fields field) (rows.map fun row => row field.name)) := by
  rw [columnArrays, List.getElem?_map, there]
  rfl

/-- A batch of arrays that are built from these cells is aligned with them. -/
theorem Aligned.of_arrays (documented : arrow.Documented) {schema : Schema} {fields : List PgField}
    (distinct : DistinctNames fields) {rows : List (List (Option Str))} {batch : B}
    (built : arrow.tryNew schema (columnArrays p fields schema
      (rows.map fun cells name => indexed (buildPgFieldIndex fields) name cells)) = .ok batch) :
    Aligned p arrow schema fields rows batch := by
  obtain ⟨columns, some, lengths⟩ := documented.built built
  have column : ∀ {c : Nat} {field : Field} {array},
      schema[c]? = Option.some field → (arrow.columns batch)[c]? = Option.some array →
      array.values = rows.map fun cells =>
        (indexed (buildPgFieldIndex fields) field.name cells).bind (typedParse p (columnType fields field)) := by
    intro c field array there built
    rw [columns, columnArrays_get there] at built
    cases built
    rw [buildArray_values, List.map_map, List.map_map]
    rfl
  constructor
  · obtain ⟨array, member⟩ := List.exists_mem_of_ne_nil _ some
    rw [← lengths array member]
    obtain ⟨field, _, rfl⟩ := List.mem_map.mp member
    rw [buildArray_values, List.length_map, List.length_map, List.length_map]
  · rw [columns, columnArrays, List.length_map]
  · intro c field array there built j f present named r cells row
    obtain ⟨index, last⟩ := lastNamed_distinct distinct present named
    rw [column there built, List.getElem?_map, row, Option.map_some, indexed, index, columnType, last]
    rfl
  · intro c field array there built unnamed r cells row
    rw [column there built, List.getElem?_map, row, Option.map_some, indexed, lastNamed_none unnamed]
    rfl

end

/-- The batch from wire rows is the one from the decoded rows, and is aligned with what was written. -/
theorem pgRows_eq_rows {arrow : RecordBatches F32 F64 B} (documented : arrow.Documented) (schema : Schema)
    {fields : List PgField} (distinct : DistinctNames fields) {written : List (List (Option Str))}
    (short : ∀ cells ∈ written, Short cells) :
    pgRowsToTypedBatchForSchema p arrow schema fields (buildPgFieldIndex fields) (written.map wireRow) =
        rowsToTypedBatchForSchema p arrow schema fields
          ((written.map wireRow).map fun row => decodeRowCells row fields.length) ∧
      ∀ batch, pgRowsToTypedBatchForSchema p arrow schema fields (buildPgFieldIndex fields) (written.map wireRow) =
          .ok batch → Aligned p arrow schema fields written batch := by
  have refs : ∀ cells ∈ written, decodeRowCellRefs (wireRow cells) = cells := fun cells member =>
    decodeRowCellRefs_wireRow (short cells member)
  have fast : (written.map wireRow).map (fun row name =>
      indexed (buildPgFieldIndex fields) name (decodeRowCellRefs row)) =
        written.map fun cells name => indexed (buildPgFieldIndex fields) name cells := by
    rw [List.map_map]
    apply List.map_congr_left
    intro cells member
    rw [Function.comp_apply, refs cells member]
  have plain : ((written.map wireRow).map fun row => decodeRowCells row fields.length).map (fun cells name =>
      indexed (buildPgFieldIndex fields) name cells) =
        written.map fun cells name => indexed (buildPgFieldIndex fields) name cells := by
    rw [List.map_map, List.map_map]
    apply List.map_congr_left
    intro cells member
    funext name
    rw [Function.comp_apply, Function.comp_apply, decodeRowCells_wireRow (short cells member), indexed_firstCells]
  rw [pgRows_eq, rows_eq, fast, plain]
  exact ⟨rfl, fun batch built => .of_arrays documented distinct built⟩

/-! ### Batches of Arrow -/

/-- What `RecordBatch::try_new` checks. -/
structure Accepted (schema : Schema) (arrays : List (ArrayRef F32 F64)) : Prop where
  nonempty : arrays ≠ []
  types : arrays.map ArrayRef.dataType = schema.map Field.dataType
  lengths : ∀ array ∈ arrays, array.values.length = ((arrays.head?.map fun first => first.values.length)).getD 0
  nulls : ∀ pair ∈ schema.zip arrays, pair.1.nullable = false → pair.2.values.all Option.isSome = true

instance (schema : Schema) (arrays : List (ArrayRef F32 F64)) : Decidable (Accepted schema arrays) :=
  decidable_of_iff (arrays.isEmpty = false ∧ arrays.map ArrayRef.dataType = schema.map Field.dataType ∧
      (∀ array ∈ arrays, array.values.length = ((arrays.head?.map fun first => first.values.length)).getD 0) ∧
      ∀ pair ∈ schema.zip arrays, pair.1.nullable = false → pair.2.values.all Option.isSome = true)
    ⟨fun ⟨filled, types, lengths, nulls⟩ => ⟨List.isEmpty_eq_false_iff.mp filled, types, lengths, nulls⟩,
      fun all => ⟨List.isEmpty_eq_false_iff.mpr all.nonempty, all.types, all.lengths, all.nulls⟩⟩

/-- A batch as the number of its rows and its arrays. -/
def plainBatches (F32 F64 : Type) : RecordBatches F32 F64 (Nat × List (ArrayRef F32 F64)) where
  tryNew schema arrays :=
    if Accepted schema arrays then .ok (((arrays.head?.map fun first => first.values.length)).getD 0, arrays)
    else .error "invalid argument".toList
  numRows := Prod.fst
  columns := Prod.snd

theorem plainBatches_tryNew {schema : Schema} {arrays : List (ArrayRef F32 F64)} :
    (∃ batch, (plainBatches F32 F64).tryNew schema arrays = .ok batch) ↔ Accepted schema arrays := by
  constructor
  · rintro ⟨batch, built⟩
    by_contra refused
    exact nomatch (if_neg refused).symm.trans built
  · exact fun accepted => ⟨_, if_pos accepted⟩

theorem plainBatches_documented (F32 F64 : Type) : (plainBatches F32 F64).Documented := by
  constructor
  · intro schema arrays batch built
    have accepted := plainBatches_tryNew.mp ⟨batch, built⟩
    obtain rfl := Except.ok.inj ((if_pos accepted).symm.trans built)
    exact ⟨rfl, accepted.nonempty, accepted.lengths⟩
  · intro schema arrays some nullable
    have types : List.Forall₂ (fun field array => array.dataType = field.dataType) schema arrays ↔
        arrays.map ArrayRef.dataType = schema.map Field.dataType := by
      rw [← List.forall₂_eq_eq_eq, List.forall₂_map_left_iff, List.forall₂_map_right_iff]
      exact ⟨List.Forall₂.flip, List.Forall₂.flip⟩
    rw [types, plainBatches_tryNew]
    constructor
    · exact fun accepted => ⟨accepted.types, _, accepted.lengths⟩
    · rintro ⟨same, n, lengths⟩
      have nonempty : arrays ≠ [] := by
        rintro rfl
        exact some (List.map_eq_nil_iff.mp same.symm)
      obtain ⟨first, rest, rfl⟩ := List.exists_cons_of_ne_nil nonempty
      refine ⟨nonempty, same, fun array member => ?_, fun pair member required => ?_⟩
      · rw [lengths array member]
        exact (lengths first List.mem_cons_self).symm
      · rw [nullable pair.1 (List.of_mem_zip member).1] at required
        cases required

/-! ### Columns with a time zone -/

def timestamptz : Str := "timestamptz".toList

/-- What is found in a table is in its first row or in the others. -/
@[elab_as_elim]
theorem ok_of_table {P : DataType → Prop} {c : Prop} [Decidable c] {first dataType : DataType}
    {others : Except Str DataType} (known : (if c then .ok first else others) = .ok dataType) (here : c → P first)
    (later : ¬ c → others = .ok dataType → P dataType) : P dataType := by
  by_cases isFirst : c
  · rw [if_pos isFirst] at known
    cases known
    exact here isFirst
  · exact later isFirst ((if_neg isFirst).symm.trans known)

/-- The array of a column has the column's type but for the time zone. -/
theorem buildArray_dataType {typeName : Str} {dataType : DataType} (known : configTypeToArrow typeName = .ok dataType)
    (cells : List (Option Str)) :
    (buildArray p dataType cells).dataType = dataType ↔ eqIgnoreAsciiCase typeName timestamptz = false := by
  have zone : eqIgnoreAsciiCase typeName timestamptz = true ↔ toAsciiLowercase typeName = timestamptz := by
    rw [eqIgnoreAsciiCase_iff, show toAsciiLowercase timestamptz = timestamptz by decide]
  rw [← Bool.not_eq_true, zone]
  unfold configTypeToArrow at known
  dsimp only at known
  by_cases tz : toAsciiLowercase typeName = timestamptz
  · rw [tz] at known
    have zoned : dataType = .timestamp .microsecond (some utc) := by
      have read : Except.ok (DataType.timestamp .microsecond (some utc)) = Except.ok (ε := Str) dataType := by
        rw [← known]
        decide
      exact (Except.ok.inj read).symm
    rw [zoned]
    exact iff_of_false (by simp [buildArray, ArrayRef.dataType]) (not_not.mpr tz)
  · refine iff_of_true ?_ tz
    iterate 8 refine ok_of_table known (fun _ => rfl) fun _ known => ?_
    refine ok_of_table known (fun zoned => absurd zoned tz) fun _ known => ?_
    iterate 2 refine ok_of_table known (fun _ => rfl) fun _ known => ?_
    cases known

/-- Each column of the schema is absent from the answer, or has a type that is the column's. -/
def CorrectlyTyped (schema : Schema) (fields : List PgField) : Prop :=
  ∀ field ∈ schema, ∀ f ∈ lastNamed fields field.name, pgTypeToArrow f.datatype = field.dataType

theorem schemaFromColumns_columns {columns : List ColumnConfig} {schema : Schema}
    (accepted : schemaFromColumns columns = .ok schema) :
    schema ≠ [] ∧ (∀ field ∈ schema, field.nullable = true) ∧
      List.Forall₂ (fun column field => configTypeToArrow column.typeName = .ok field.dataType) columns schema := by
  unfold schemaFromColumns at accepted
  split at accepted
  · cases accepted
  rename_i some
  have each := mapM_forall₂ accepted
  have known : List.Forall₂ (fun column field =>
      configTypeToArrow column.typeName = .ok field.dataType ∧ field.nullable = true) columns schema := by
    apply each.imp
    intro column field mapped
    cases typed : configTypeToArrow column.typeName with
    | error e =>
      rw [typed] at mapped
      cases mapped
    | ok dataType =>
      rw [typed] at mapped
      cases mapped
      exact ⟨rfl, rfl⟩
  refine ⟨?_, fun field member => ?_, known.imp fun _ _ both => both.1⟩
  · rintro rfl
    cases each
    exact some rfl
  · obtain ⟨c, inside, rfl⟩ := List.mem_iff_getElem.mp member
    exact (known.get (known.length_eq ▸ inside) inside).2

/-- A correctly typed answer builds, whatever its rows are, exactly if no column of the table has a time zone. -/
theorem batch_builds_iff {arrow : RecordBatches F32 F64 B} (documented : arrow.Documented)
    {columns : List ColumnConfig} {schema : Schema} (accepted : schemaFromColumns columns = .ok schema)
    {fields : List PgField} (typed : CorrectlyTyped schema fields) (rows : List WireRow) :
    (∃ batch, pgRowsToTypedBatchForSchema p arrow schema fields (buildPgFieldIndex fields) rows = .ok batch) ↔
      ∀ column ∈ columns, eqIgnoreAsciiCase column.typeName timestamptz = false := by
  obtain ⟨some, nullable, known⟩ := schemaFromColumns_columns accepted
  have same : ∀ field ∈ schema, columnType fields field = field.dataType := by
    intro field member
    unfold columnType
    cases last : lastNamed fields field.name with
    | none => rfl
    | some f => exact typed field member f last
  rw [pgRows_eq, documented.accepts some nullable, columnArrays]
  generalize (rows.map fun row name => indexed (buildPgFieldIndex fields) name (decodeRowCellRefs row)) = cells
  have lengths : ∃ n, ∀ array ∈ schema.map fun field =>
      buildArray p (columnType fields field) (cells.map fun row => row field.name), array.values.length = n := by
    refine ⟨cells.length, fun array member => ?_⟩
    obtain ⟨field, _, rfl⟩ := List.mem_map.mp member
    rw [buildArray_values, List.length_map, List.length_map]
  rw [and_iff_left lengths, List.forall₂_map_right_iff, List.forall₂_same]
  have each : (∀ field ∈ schema, (buildArray p (columnType fields field)
      (cells.map fun row => row field.name)).dataType = field.dataType) ↔
        ∀ field ∈ schema, (buildArray p field.dataType (cells.map fun row => row field.name)).dataType =
          field.dataType := by
    refine forall₂_congr fun field member => ?_
    rw [same field member]
  rw [each]
  exact forall_right_iff known fun read => buildArray_dataType p read _

/-! ### Samples -/

/-- No column of a sample is a float or a date. -/
def noFloats : Parsers Unit Unit := ⟨fun _ => none, fun _ => none, fun _ _ => none, fun _ _ => none, fun _ => none,
  fun _ => none⟩

def sampleColumns : List ColumnConfig := [⟨"Price".toList, "LONG".toList⟩, ⟨"venue".toList, "symbol".toList⟩]

def sampleSchema : Schema := [⟨"Price".toList, .int64, true⟩, ⟨"venue".toList, .utf8, true⟩]

def sampleFields : List PgField := [⟨"id".toList, .int4⟩, ⟨"price".toList, .int8⟩]

def sampleRows : List (List (Option Str)) := [[some "1".toList, some "15".toList], [none], [some "2".toList, none]]

theorem pgRows_eq_rows_sample :
    ∃ batch, rowsToTypedBatchForSchema noFloats (plainBatches Unit Unit) sampleSchema sampleFields
        ((sampleRows.map wireRow).map fun row => decodeRowCells row 2) = .ok batch ∧
      Aligned noFloats (plainBatches Unit Unit) sampleSchema sampleFields sampleRows batch := by
  have distinct : DistinctNames sampleFields := by
    unfold DistinctNames
    decide
  have short : ∀ cells ∈ sampleRows, Short cells := by
    unfold Short
    decide
  obtain ⟨same, aligned⟩ :=
    pgRows_eq_rows noFloats (plainBatches_documented Unit Unit) sampleSchema distinct short
  obtain ⟨batch, built⟩ : ∃ batch, pgRowsToTypedBatchForSchema noFloats (plainBatches Unit Unit) sampleSchema
      sampleFields (buildPgFieldIndex sampleFields) (sampleRows.map wireRow) = .ok batch := by
    rw [pgRows_eq]
    exact plainBatches_tryNew.mpr (by decide +kernel)
  exact ⟨batch, same.symm.trans built, aligned batch built⟩

theorem batch_builds_sample :
    ∃ batch, pgRowsToTypedBatchForSchema noFloats (plainBatches Unit Unit) sampleSchema sampleFields
      (buildPgFieldIndex sampleFields) (sampleRows.map wireRow) = .ok batch := by
  have typed : CorrectlyTyped sampleSchema sampleFields := by
    unfold CorrectlyTyped
    decide +kernel
  have accepted : schemaFromColumns sampleColumns = .ok sampleSchema := by decide +kernel
  exact (batch_builds_iff noFloats (plainBatches_documented Unit Unit) accepted typed _).mpr (by decide +kernel)

def zonedSchema : Schema := [⟨"ts".toList, .timestamp .microsecond (some utc), true⟩]

/-- A column with a time zone does not build from its own type, not even without rows. -/
theorem zoned_column_unreadable :
    schemaFromColumns [⟨"ts".toList, timestamptz⟩] = .ok zonedSchema ∧
      CorrectlyTyped zonedSchema [⟨"ts".toList, .timestamptz⟩] ∧
      ¬ ∃ batch, pgRowsToTypedBatchForSchema noFloats (plainBatches Unit Unit) zonedSchema
        [⟨"ts".toList, .timestamptz⟩] (buildPgFieldIndex [⟨"ts".toList, .timestamptz⟩]) [] = .ok batch := by
  refine ⟨by decide +kernel, ?_, ?_⟩
  · unfold CorrectlyTyped
    decide +kernel
  · rw [pgRows_eq, plainBatches_tryNew]
    decide +kernel

end QuestRouter.Federated
