import QuestRouter.Config
import QuestRouter.Federated.Wire
import QuestRouter.Stream.Row

/-!
# Typed batches

The columns of a table have Arrow types by their configured names, those of a shard's answer by their PostgreSQL
types. A batch is built column by column from the text of the cells. Arrow, chrono and the parsing of floats are
parameters.
-/

namespace QuestRouter.Federated
open Text

/-! ### Types -/

inductive TimeUnit where
  | second
  | millisecond
  | microsecond
  | nanosecond
  deriving DecidableEq, Repr

/-- Arrow's types; those that nothing here tells apart are one constructor. -/
inductive DataType where
  | boolean
  | int16
  | int32
  | int64
  | float32
  | float64
  | date32
  | timestamp (unit : TimeUnit) (tz : Option Str)
  | binary
  | utf8
  | list (name : Str) (item : DataType) (nullable : Bool)
  | largeList (name : Str) (item : DataType) (nullable : Bool)
  | other (name : Str)
  deriving DecidableEq, Repr

structure Field where
  name : Str
  dataType : DataType
  nullable : Bool
  deriving DecidableEq, Repr

abbrev Schema := List Field

/-- `postgres_types::Type`, with the kind of its arrays. -/
inductive PgType where
  | bool
  | int2
  | int4
  | int8
  | float4
  | float8
  | numeric
  | date
  | timestamp
  | timestamptz
  | bytea
  | array (elem : PgType)
  | other (name : Str)
  deriving DecidableEq, Repr

/-- A `FieldInfo` of an answer with its type. -/
structure PgField where
  name : Str
  datatype : PgType
  deriving DecidableEq, Repr

structure ColumnConfig where
  name : Str
  typeName : Str
  deriving DecidableEq, Repr

def utc : Str := "+00:00".toList

def configTypeToArrow (typeName : Str) : Except Str DataType :=
  let lower := toAsciiLowercase typeName
  if lower ∈ ["symbol", "string", "varchar", "text", "char"].map String.toList then .ok .utf8
  else if lower ∈ ["double", "float8"].map String.toList then .ok .float64
  else if lower ∈ ["float", "float4", "real"].map String.toList then .ok .float32
  else if lower ∈ ["long", "int8", "bigint"].map String.toList then .ok .int64
  else if lower ∈ ["int", "int4", "integer"].map String.toList then .ok .int32
  else if lower ∈ ["short", "int2", "smallint"].map String.toList then .ok .int16
  else if lower ∈ ["boolean", "bool"].map String.toList then .ok .boolean
  else if lower ∈ ["timestamp", "datetime"].map String.toList then .ok (.timestamp .microsecond none)
  else if lower = "timestamptz".toList then .ok (.timestamp .microsecond (some utc))
  else if lower = "date".toList then .ok .date32
  else if lower ∈ ["binary", "bytea"].map String.toList then .ok .binary
  else .error ("unsupported column type: ".toList ++ lower)

def schemaFromColumns (columns : List ColumnConfig) : Except Str Schema :=
  if columns.isEmpty then .error "table must declare at least one column".toList
  else columns.mapM fun c => (configTypeToArrow c.typeName).map fun dataType => ⟨c.name, dataType, true⟩

def pgTypeToArrow : PgType → DataType
  | .array elem => .list "item".toList (pgTypeToArrow elem) true
  | .bool => .boolean
  | .int2 => .int16
  | .int4 => .int32
  | .int8 => .int64
  | .float4 => .float32
  | .float8 => .float64
  | .numeric => .float64
  | .date => .date32
  | .timestamp => .timestamp .microsecond none
  | .timestamptz => .timestamp .microsecond (some utc)
  | .bytea => .binary
  | .other _ => .utf8

/-! ### Values -/

/-- What the standard library, chrono and hex make of a text. A date is in days since 1970-01-01, an instant in
microseconds. -/
structure Parsers (F32 F64 : Type) where
  f32 : Str → Option F32
  f64 : Str → Option F64
  naiveDate : Str → Str → Option Int
  naiveDateTime : Str → Str → Option Int
  rfc3339 : Str → Option Int
  hexDecode : Str → Option Bytes

def parseBool (s : Str) : Option Bool :=
  if s ∈ ["t", "true", "TRUE", "1"].map String.toList then some true
  else if s ∈ ["f", "false", "FALSE", "0"].map String.toList then some false
  -- `bool::from_str` reads no other text
  else none

/-- `from_str` of a signed integer. -/
def parseSigned (bits : Nat) (s : Str) : Option Int :=
  (Stream.parseI64 s).filter fun n => -2 ^ (bits - 1) ≤ n && n < 2 ^ (bits - 1)

section
variable {F32 F64 : Type} (p : Parsers F32 F64)

def parseDate32 (s : Str) : Option Int32 := (p.naiveDate s "%Y-%m-%d".toList).map Int32.ofInt

def parseTimestampMicros (s : Str) (hasTz : Bool) : Option Int64 :=
  let micros :=
    if hasTz then p.rfc3339 s
    else
      (p.rfc3339 s).or ((p.naiveDateTime s "%Y-%m-%d %H:%M:%S%.f".toList).or
        ((p.naiveDateTime s "%Y-%m-%dT%H:%M:%S%.f".toList).or (Stream.parseI64 s)))
  micros.map Int64.ofInt

def parseBytea (s : Str) : Option Bytes :=
  if "\\x".toList.isPrefixOf s then p.hexDecode (s.drop 2) else some (asBytes s)

end

/-- The arrays that are built; a timestamp array has no time zone. -/
inductive ArrayRef (F32 F64 : Type) where
  | boolean (values : List (Option Bool))
  | int16 (values : List (Option Int16))
  | int32 (values : List (Option Int32))
  | int64 (values : List (Option Int64))
  | float32 (values : List (Option F32))
  | float64 (values : List (Option F64))
  | date32 (values : List (Option Int32))
  | timestampMicrosecond (values : List (Option Int64))
  | binary (values : List (Option Bytes))
  | string (values : List (Option Str))

def ArrayRef.dataType {F32 F64 : Type} : ArrayRef F32 F64 → DataType
  | .boolean _ => .boolean
  | .int16 _ => .int16
  | .int32 _ => .int32
  | .int64 _ => .int64
  | .float32 _ => .float32
  | .float64 _ => .float64
  | .date32 _ => .date32
  | .timestampMicrosecond _ => .timestamp .microsecond none
  | .binary _ => .binary
  | .string _ => .utf8

section
variable {F32 F64 : Type} (p : Parsers F32 F64)

def buildArray (dataType : DataType) (values : List (Option Str)) : ArrayRef F32 F64 :=
  match dataType with
  | .boolean => .boolean (values.map (·.bind parseBool))
  | .int16 => .int16 (values.map (·.bind fun s => (parseSigned 16 s).map Int16.ofInt))
  | .int32 => .int32 (values.map (·.bind fun s => (parseSigned 32 s).map Int32.ofInt))
  | .int64 => .int64 (values.map (·.bind fun s => (parseSigned 64 s).map Int64.ofInt))
  | .float32 => .float32 (values.map (·.bind p.f32))
  | .float64 => .float64 (values.map (·.bind p.f64))
  | .date32 => .date32 (values.map (·.bind (parseDate32 p)))
  | .timestamp .microsecond tz =>
    .timestampMicrosecond (values.map (·.bind fun s => parseTimestampMicros p s tz.isSome))
  | .binary => .binary (values.map (·.bind (parseBytea p)))
  | .list _ _ _ => .string values
  | .largeList _ _ _ => .string values
  | _ => .string values

/-! ### Batches -/

/-- Record batches of Arrow: `RecordBatch::try_new`, and what a batch has. -/
structure RecordBatches (F32 F64 B : Type) where
  tryNew : Schema → List (ArrayRef F32 F64) → Except Str B
  numRows : B → Nat
  columns : B → List (ArrayRef F32 F64)

variable {B : Type} (arrow : RecordBatches F32 F64 B)

def buildPgFieldIndex (pgFields : List PgField) : HashMap Str Nat :=
  .collect (pgFields.zipIdx.map fun (field, idx) => (toAsciiLowercase field.name, idx))

/-- A batch with the columns of the schema, from rows of decoded cells. -/
def rowsToTypedBatchForSchema (targetSchema : Schema) (pgFields : List PgField) (rows : List (List (Option Str))) :
    Except Str B :=
  let pgIndex : HashMap Str Nat :=
    .collect (pgFields.zipIdx.map fun (field, idx) => (toAsciiLowercase field.name, idx))
  let arrays := targetSchema.map fun targetField =>
    let pgIdx := pgIndex.get (toAsciiLowercase targetField.name)
    let pgField := pgIdx.bind fun idx => pgFields[idx]?
    let values := rows.map fun row => pgIdx.bind fun idx => row[idx]?.join
    buildArray p ((pgField.map fun f => pgTypeToArrow f.datatype).getD targetField.dataType) values
  arrow.tryNew targetSchema arrays

/-- The values of one wire row, each put at the end of its column. -/
def pushRow (targetSchema : Schema) (pgIndex : HashMap Str Nat) (columns : List (List (Option Str))) (row : WireRow) :
    List (List (Option Str)) :=
  let cells := decodeRowCellRefs row
  List.zipWith (fun column targetField =>
    let pgIdx := pgIndex.get (toAsciiLowercase targetField.name)
    column ++ [pgIdx.bind fun idx => cells[idx]?.join]) columns targetSchema

/-- A batch with the columns of the schema, from wire rows that are decoded once. -/
def pgRowsToTypedBatchForSchema (targetSchema : Schema) (pgFields : List PgField) (pgIndex : HashMap Str Nat)
    (rows : List WireRow) : Except Str B :=
  let columns := rows.foldl (pushRow targetSchema pgIndex) (targetSchema.map fun _ => [])
  let arrays := List.zipWith (fun targetField column =>
    let pgIdx := pgIndex.get (toAsciiLowercase targetField.name)
    let pgField := pgIdx.bind fun idx => pgFields[idx]?
    buildArray p ((pgField.map fun f => pgTypeToArrow f.datatype).getD targetField.dataType) column)
    targetSchema columns
  arrow.tryNew targetSchema arrays

end
end QuestRouter.Federated
