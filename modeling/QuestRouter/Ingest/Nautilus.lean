import Mathlib.Data.List.Forall2
import QuestRouter.Config
import QuestRouter.Text.Replace
import QuestRouter.Text.Utf8

/-!
# Rows of a Nautilus object

The key of an object says what is in it and, where the metadata of a batch does not, of which instrument. Each
row of its batches becomes one line, and an object without rows is an error.
-/

namespace QuestRouter.Ingest.Nautilus
open Text

structure NautilusIngestConfig where
  tradeTable : Str
  quoteTable : Str
  deriving DecidableEq, Repr

def NautilusIngestConfig.default : NautilusIngestConfig := ⟨"trade_ticks".toList, "quote_ticks".toList⟩

inductive NautilusDataKind where
  | tradeTick
  | quoteTick
  deriving DecidableEq, Repr

structure InstrumentMeta where
  symbol : Str
  venue : Str
  pricePrecision : Nat
  sizePrecision : Nat

/-- The values of a column by row. -/
inductive Column where
  | fixedSizeBinary (value : Nat → Bytes)
  | uint8 (value : Nat → Nat)
  | utf8 (value : Nat → Str)
  | uint64 (value : Nat → Nat)
  | other

structure RecordBatch where
  metadata : HashMap Str Str
  columns : List (Str × Column)
  numRows : Nat

/-- The batches of a stream as the Arrow reader returns them, each of them or an error, and how `f64` prints
a raw value divided by a power of ten. -/
structure Arrow where
  readStream : Bytes → Option (List (Option RecordBatch))
  formatFixed : Int → Nat → Str

def unknown : Str := "UNKNOWN".toList

def marker : NautilusDataKind → Str
  | .tradeTick => "/data/trades/".toList
  | .quoteTick => "/data/quotes/".toList

def classifyObjectKey (key : Str) : Option NautilusDataKind :=
  let lower := toAsciiLowercase key
  if contains lower (marker .tradeTick) then some .tradeTick
  else if contains lower (marker .quoteTick) then some .quoteTick
  else none

def instrumentFromPath (key : Str) (kind : NautilusDataKind) : Option Str := do
  let idx ← find (marker kind) (toAsciiLowercase key)
  let instrument := (key.drop (idx + (marker kind).length)).takeWhile (· != '/')
  if instrument.isEmpty then none else some instrument

/-- `rsplit_once('.')`. -/
def parseInstrumentId (instrumentId : Str) : Str × Str :=
  if '.' ∈ instrumentId then
    (instrumentId.take (instrumentId.length - (lastSegment '.' instrumentId).length - 1),
      lastSegment '.' instrumentId)
  else (instrumentId, unknown)

/-- `u8::from_str`. -/
def parseU8 (s : Str) : Option Nat := (parseUsize s).filter (· < 2 ^ 8)

def schemaMeta (batch : RecordBatch) : InstrumentMeta :=
  let instrumentId := (batch.metadata.get "instrument_id".toList).getD []
  let (symbol, venue) := if instrumentId.isEmpty then (unknown, unknown) else parseInstrumentId instrumentId
  { symbol
    venue
    pricePrecision := ((batch.metadata.get "price_precision".toList).bind parseU8).getD 8
    sizePrecision := ((batch.metadata.get "size_precision".toList).bind parseU8).getD 8 }

/-- `i64::from_le_bytes`. -/
def fromLeBytes (bytes : Bytes) : Int :=
  let n : Nat := bytes.foldr (fun b n => b.toNat + 256 * n) 0
  if n < 2 ^ 63 then n else n - 2 ^ 64

/-- The value as it is printed. -/
def fixedToF64 (arrow : Arrow) (bytes : Bytes) (precision : Nat) : Option Str :=
  if bytes.length = 8 then some (arrow.formatFixed (fromLeBytes bytes) precision) else none

def aggressorName (value : Nat) : Str :=
  if value = 1 then "BUYER".toList else if value = 2 then "SELLER".toList else "NO_AGGRESSOR".toList

def escapeTag (value : Str) : Str :=
  replace (replace (replace (replace value "\\".toList "\\\\".toList) " ".toList "\\ ".toList)
    ",".toList "\\,".toList) "=".toList "\\=".toList

def escapeFieldString (value : Str) : Str :=
  replace (replace value "\\".toList "\\\\".toList) "\"".toList "\\\"".toList

def columnByName (batch : RecordBatch) (name : String) : Option Column :=
  (batch.columns.find? fun c => c.1 = name.toList).map Prod.snd

def fixedColumn (batch : RecordBatch) (name : String) : Option (Nat → Bytes) :=
  match columnByName batch name with
  | some (.fixedSizeBinary value) => some value
  | _ => none

def uint8Column (batch : RecordBatch) (name : String) : Option (Nat → Nat) :=
  match columnByName batch name with
  | some (.uint8 value) => some value
  | _ => none

def stringColumn (batch : RecordBatch) (name : String) : Option (Nat → Str) :=
  match columnByName batch name with
  | some (.utf8 value) => some value
  | _ => none

def uint64Column (batch : RecordBatch) (name : String) : Option (Nat → Nat) :=
  match columnByName batch name with
  | some (.uint64 value) => some value
  | _ => none

/-- `{table},{tags} {fields} {ts}`. -/
def formatLine (instrument : InstrumentMeta) (table fields : Str) (ts : Nat) : Str :=
  table ++ ",symbol=".toList ++ escapeTag instrument.symbol ++ ",venue=".toList ++ escapeTag instrument.venue ++
    " ".toList ++ fields ++ " ".toList ++ decimal ts

def formatTradeLine (arrow : Arrow) (instrument : InstrumentMeta) (batch : RecordBatch) (row : Nat) (table : Str) :
    Option Str := do
  let priceCol ← fixedColumn batch "price"
  let sizeCol ← fixedColumn batch "size"
  let sideCol ← uint8Column batch "aggressor_side"
  let tradeIdCol ← stringColumn batch "trade_id"
  let tsCol ← uint64Column batch "ts_event"
  let price ← fixedToF64 arrow (priceCol row) instrument.pricePrecision
  let size ← fixedToF64 arrow (sizeCol row) instrument.sizePrecision
  let fields := "price=".toList ++ price ++ ",size=".toList ++ size ++ ",aggressor_side=\"".toList ++
    escapeFieldString (aggressorName (sideCol row)) ++ "\",trade_id=\"".toList ++
    escapeFieldString (tradeIdCol row) ++ "\"".toList
  return formatLine instrument table fields (tsCol row)

def formatQuoteLine (arrow : Arrow) (instrument : InstrumentMeta) (batch : RecordBatch) (row : Nat) (table : Str) :
    Option Str := do
  let bidCol ← fixedColumn batch "bid_price"
  let askCol ← fixedColumn batch "ask_price"
  let bidSizeCol ← fixedColumn batch "bid_size"
  let askSizeCol ← fixedColumn batch "ask_size"
  let tsCol ← uint64Column batch "ts_event"
  let bid ← fixedToF64 arrow (bidCol row) instrument.pricePrecision
  let ask ← fixedToF64 arrow (askCol row) instrument.pricePrecision
  let bidSize ← fixedToF64 arrow (bidSizeCol row) instrument.sizePrecision
  let askSize ← fixedToF64 arrow (askSizeCol row) instrument.sizePrecision
  let fields := "bid=".toList ++ bid ++ ",ask=".toList ++ ask ++ ",bid_size=".toList ++ bidSize ++
    ",ask_size=".toList ++ askSize
  return formatLine instrument table fields (tsCol row)

def tableOf (config : NautilusIngestConfig) : NautilusDataKind → Str
  | .tradeTick => config.tradeTable
  | .quoteTick => config.quoteTable

/-- The instrument of a batch; where the metadata does not name it, the key may. -/
def instrumentOf (key : Str) (kind : NautilusDataKind) (batch : RecordBatch) : InstrumentMeta :=
  let found := schemaMeta batch
  if found.symbol = unknown then
    match instrumentFromPath key kind with
    | some instrument => { found with symbol := (parseInstrumentId instrument).1, venue := (parseInstrumentId instrument).2 }
    | none => found
  else found

def formatRow (arrow : Arrow) (kind : NautilusDataKind) (instrument : InstrumentMeta) (batch : RecordBatch)
    (table : Str) (row : Nat) : Option Str :=
  match kind with
  | .tradeTick => formatTradeLine arrow instrument batch row table
  | .quoteTick => formatQuoteLine arrow instrument batch row table

/-- The table of the last batch, and the lines of all. -/
def decodeBatches (arrow : Arrow) (key : Str) (config : NautilusIngestConfig) (kind : NautilusDataKind) :
    Str × List Str → List (Option RecordBatch) → Option (Str × List Str)
  | decoded, [] => some decoded
  | _, none :: _ => none
  | (_, lines), some batch :: rest => do
    let table := tableOf config kind
    let rows ← (List.range batch.numRows).mapM (formatRow arrow kind (instrumentOf key kind batch) batch table)
    decodeBatches arrow key config kind (table, lines ++ rows) rest

def decodeFeatherToIlp (arrow : Arrow) (config : NautilusIngestConfig) (key : Str) (bytes : Bytes) :
    Option (Str × List Str) := do
  let kind ← classifyObjectKey key
  let batches ← arrow.readStream bytes
  let (table, lines) ← decodeBatches arrow key config kind ([], []) batches
  if lines.isEmpty then none else some (table, lines)

/-! ### The lines of an object -/

variable {arrow : Arrow} {config : NautilusIngestConfig} {kind : NautilusDataKind} {key table : Str}

theorem formatLine_table (instrument : InstrumentMeta) (table fields : Str) (ts : Nat) :
    ∃ rest, formatLine instrument table fields ts = table ++ ',' :: rest := by
  unfold formatLine
  simp only [List.append_assoc]
  exact ⟨_, rfl⟩

theorem formatRow_table {instrument : InstrumentMeta} {batch : RecordBatch} {row : Nat} {line : Str}
    (formatted : formatRow arrow kind instrument batch table row = some line) :
    ∃ rest, line = table ++ ',' :: rest := by
  unfold formatRow at formatted
  split at formatted
  · unfold formatTradeLine at formatted
    simp only [Option.bind_eq_bind, Option.bind_eq_some_iff, Option.pure_def, Option.some.injEq] at formatted
    obtain ⟨_, _, _, _, _, _, _, _, _, _, _, _, _, _, rfl⟩ := formatted
    exact formatLine_table ..
  · unfold formatQuoteLine at formatted
    simp only [Option.bind_eq_bind, Option.bind_eq_some_iff, Option.pure_def, Option.some.injEq] at formatted
    obtain ⟨_, _, _, _, _, _, _, _, _, _, _, _, _, _, _, _, _, _, rfl⟩ := formatted
    exact formatLine_table ..

theorem mapM_forall₂ {α β : Type} {f : α → Option β} {xs : List α} {ys : List β} (mapped : xs.mapM f = some ys) :
    List.Forall₂ (fun x y => f x = some y) xs ys := by
  induction xs generalizing ys with
  | nil =>
    cases mapped
    exact .nil
  | cons x xs ih =>
    simp only [List.mapM_cons, Option.bind_eq_bind, Option.bind_eq_some_iff, Option.pure_def,
      Option.some.injEq] at mapped
    obtain ⟨first, here, rest, later, rfl⟩ := mapped
    exact .cons here (ih later)

/-- A row of an object, and the instrument that it is written for. -/
structure ObjectRow where
  instrument : InstrumentMeta
  batch : RecordBatch
  row : Nat

def objectRows (key : Str) (kind : NautilusDataKind) (batches : List RecordBatch) : List ObjectRow :=
  batches.flatMap fun batch => (List.range batch.numRows).map fun row => ⟨instrumentOf key kind batch, batch, row⟩

/-- The line is the one that the row is written as. -/
def WrittenAs (arrow : Arrow) (kind : NautilusDataKind) (table : Str) (row : ObjectRow) (line : Str) : Prop :=
  formatRow arrow kind row.instrument row.batch table row.row = some line

theorem length_objectRows (key : Str) (kind : NautilusDataKind) (batches : List RecordBatch) :
    (objectRows key kind batches).length = (batches.map RecordBatch.numRows).sum := by
  simp only [objectRows, List.length_flatMap, List.length_map, List.length_range]

theorem decodeBatches_rows {batches : List (Option RecordBatch)} {before decoded : Str × List Str}
    (result : decodeBatches arrow key config kind before batches = some decoded) :
    ∃ read rows, batches = read.map some ∧ decoded.2 = before.2 ++ rows ∧
      (read ≠ [] → decoded.1 = tableOf config kind) ∧
      List.Forall₂ (WrittenAs arrow kind (tableOf config kind)) (objectRows key kind read) rows := by
  induction batches generalizing before with
  | nil =>
    cases result
    exact ⟨[], [], rfl, (List.append_nil _).symm, nofun, .nil⟩
  | cons batch rest ih =>
    cases batch with
    | none => cases result
    | some batch =>
      obtain ⟨_, soFar⟩ := before
      simp only [decodeBatches, Option.bind_eq_bind, Option.bind_eq_some_iff] at result
      obtain ⟨rows, formatted, result⟩ := result
      obtain ⟨read, later, rfl, lines, table, each⟩ := ih result
      refine ⟨batch :: read, rows ++ later, rfl, by rw [lines, List.append_assoc], fun _ => ?_, ?_⟩
      · cases read with
        | nil =>
          cases result
          rfl
        | cons next read => exact table (List.cons_ne_nil next read)
      · rw [objectRows, List.flatMap_cons]
        exact List.rel_append (List.forall₂_map_left_iff.mpr (mapM_forall₂ formatted)) each

/-- The lines of an object are its rows, those of the first batch first. -/
theorem decodeFeatherToIlp_rows {bytes : Bytes} {lines : List Str}
    (decoded : decodeFeatherToIlp arrow config key bytes = some (table, lines)) :
    ∃ kind batches, classifyObjectKey key = some kind ∧ arrow.readStream bytes = some (batches.map some) ∧
      table = tableOf config kind ∧ lines ≠ [] ∧
      List.Forall₂ (WrittenAs arrow kind table) (objectRows key kind batches) lines := by
  simp only [decodeFeatherToIlp, Option.bind_eq_bind, Option.bind_eq_some_iff] at decoded
  obtain ⟨kind, classified, batches, opened, result, read, some⟩ := decoded
  split at some
  · cases some
  · rename_i rows
    obtain ⟨rfl, rfl⟩ := Prod.mk.inj (Option.some.inj some)
    obtain ⟨batches, lines, rfl, same, table, each⟩ := decodeBatches_rows read
    rw [List.nil_append] at same
    have present : result.2 ≠ [] := fun none => rows (List.isEmpty_iff.mpr none)
    have any : batches ≠ [] := by
      rintro rfl
      cases each
      exact present same
    rw [table any]
    exact ⟨kind, batches, classified, opened, rfl, present, same ▸ each⟩

/-- An object has rows, all of one table, and each of them is a line that begins with it. -/
theorem decodeFeatherToIlp_lines {bytes : Bytes} {lines : List Str}
    (decoded : decodeFeatherToIlp arrow config key bytes = some (table, lines)) :
    ∃ kind, classifyObjectKey key = some kind ∧ table = tableOf config kind ∧ lines ≠ [] ∧
      ∀ line ∈ lines, ∃ rest, line = tableOf config kind ++ ',' :: rest := by
  obtain ⟨kind, batches, classified, _, rfl, present, each⟩ := decodeFeatherToIlp_rows decoded
  refine ⟨kind, classified, rfl, present, fun line member => ?_⟩
  obtain ⟨i, inside, rfl⟩ := List.mem_iff_getElem.mp member
  exact formatRow_table (each.get (each.length_eq ▸ inside) inside)

end QuestRouter.Ingest.Nautilus
