import QuestRouter.Routing.Keys

/-!
# Rows of a line

The measurement, the tags, the fields and the timestamp of a line-protocol line, found by splitting at commas
and spaces. The numbers are of a type of their own, read by `f64`'s parser.
-/

namespace QuestRouter.Stream
open Text Routing

inductive IlpField (F : Type) where
  | float (x : F)
  | integer (n : Int)
  | bool (b : Bool)
  | string (s : Str)
  deriving DecidableEq, Repr

structure IlpRow (F : Type) where
  measurement : Str
  tags : List (Str × Str)
  fields : List (Str × IlpField F)
  timestampNs : Option Int
  deriving DecidableEq, Repr

def quote : UInt8 := asciiByte '"'

/-- `parse::<i64>()`. -/
def parseI64 (s : Str) : Option Int :=
  let digitsValue (digits : Str) : Option Int :=
    if digits.isEmpty || !digits.all Char.isDigit then none else some (Nat.ofDigitChars 10 digits 0)
  let n := match s with
    | '+' :: digits => digitsValue digits
    | '-' :: digits => (digitsValue digits).map fun n => -n
    | digits => digitsValue digits
  n.filter fun n => -2 ^ 63 ≤ n && n < 2 ^ 63

def splitAtFirst (haystack : Bytes) (needle : UInt8) : Option (Bytes × Bytes) :=
  (memchr needle haystack).map fun i => (haystack.take i, haystack.drop (i + 1))

/-- `rposition`: the last place of a byte. -/
def memrchr (b : UInt8) (bytes : Bytes) : Option Nat :=
  (memchr b bytes.reverse).map fun i => bytes.length - 1 - i

def parseFieldValue {F : Type} (parseF64 : Str → Option F) (raw : Bytes) : Option (IlpField F) :=
  match raw with
  | [] => none
  | first :: rest =>
    if first = quote then
      -- a single quote has no inside
      if rest.isEmpty then none else some (.string (fromUtf8Lossy rest.dropLast))
    else if raw.getLast? = some (asciiByte 'i') && 1 < raw.length then
      ((fromUtf8 raw.dropLast).bind parseI64).map .integer
    else do
      let s ← fromUtf8 raw
      if s ∈ ["t".toList, "T".toList, "true".toList, "TRUE".toList] then some (.bool true)
      else if s ∈ ["f".toList, "F".toList, "false".toList, "FALSE".toList] then some (.bool false)
      else (parseF64 s).map .float

def parseTag (tag : Bytes) : Option (Str × Str) :=
  (splitAtFirst tag equals).map fun (name, value) => (fromUtf8Lossy name, fromUtf8Lossy value)

def parseField {F : Type} (parseF64 : Str → Option F) (field : Bytes) : Option (Str × IlpField F) := do
  let (name, raw) ← splitAtFirst field equals
  let parsed ← parseFieldValue parseF64 raw
  return (fromUtf8Lossy name, parsed)

/-- The fields, and the timestamp after the last space. -/
def splitFields (fieldsSection : Bytes) : Bytes × Option Int :=
  match memrchr space fieldsSection with
  | none => (fieldsSection, none)
  | some i =>
    let ts := fieldsSection.drop (i + 1)
    (fieldsSection.take i, if ts.isEmpty then none else (fromUtf8 ts).bind parseI64)

/-- The parts of a section between commas; an empty section has none. -/
def commaParts (bytes : Bytes) : List Bytes := if bytes.isEmpty then [] else bytes.splitOn comma

def parseIlpRow {F : Type} (parseF64 : Str → Option F) (body : Bytes) : Option (IlpRow F) :=
  let line := if body.getLast? = some newline then body.dropLast else body
  if line.isEmpty then none
  else do
    let (measurement, rest) ← splitAtFirst line comma
    if measurement.isEmpty then none
    else
      let (tagsSection, fieldsSection) := (splitAtFirst rest space).getD (rest, [])
      let (fieldsBytes, timestampNs) := splitFields fieldsSection
      some
        { measurement := fromUtf8Lossy measurement
          tags := (commaParts tagsSection).filterMap parseTag
          fields := (commaParts fieldsBytes).filterMap (parseField parseF64)
          timestampNs }

example : parseIlpRow (fun s => parseI64 s) (asBytes "t,sym=A,x p=1,n=2i,s=\"u\" 9\n".toList) =
    some ⟨"t".toList, [("sym".toList, "A".toList)],
      [("p".toList, .float 1), ("n".toList, .integer 2), ("s".toList, .string "u".toList)], some 9⟩ := by
  decide +kernel

end QuestRouter.Stream
