import QuestRouter.Ingest.Idempotence
import QuestRouter.Ingest.Nautilus
import QuestRouter.Protocol.IlpWrites

/-!
# What a checkpoint entry says

An object is recorded after an attempt in which its whole batch was forwarded. A line that begins with a newline
is taken for a blank one and passed over, so the rows of the object were delivered unless the configured name of
their table begins with a newline.
-/

namespace QuestRouter.Ingest
open Text Routing Protocol IlpForwarder

theorem isBlank_cons (c : Char) (s : Str) : isBlank (asBytes (c :: s)) = true ↔ c = '\n' := by
  have ascii : '\n'.toNat < 128 := by decide
  have nonempty : String.utf8EncodeChar c ≠ [] := by
    intro none
    have same : asBytes [c] = asBytes [] := by rw [asBytes_cons, none]; rfl
    cases asBytes_injective same
  unfold isBlank
  rw [asBytes_cons]
  cases encoded : String.utf8EncodeChar c with
  | nil => exact (nonempty encoded).elim
  | cons b bs =>
    rw [List.cons_append, List.takeWhile_cons]
    constructor
    · intro blank
      split at blank
      · cases blank
      · rename_i first
        have first : b = newline := by simpa using first
        refine (asciiByte_mem_encode ascii).mp ?_
        rw [encoded, first]
        exact List.mem_cons_self
    · rintro rfl
      rw [utf8EncodeChar_ascii ascii] at encoded
      obtain ⟨rfl, _⟩ := List.cons.inj encoded
      rfl

/-- A line is passed over exactly if the name of its table begins with a newline. -/
theorem isBlank_row (table rest : Str) :
    isBlank (asBytes (table ++ ',' :: rest)) = true ↔ table.head? = some '\n' := by
  cases table with
  | nil =>
    rw [List.nil_append, isBlank_cons]
    decide
  | cons c table =>
    rw [List.cons_append, isBlank_cons, List.head?_cons, Option.some.injEq]

namespace IngestActor

/-- The actor before each attempt, where those before fail. -/
def attemptState (w : World) (object : ProcessObject) (a : IngestActor) : Nat → IngestActor
  | 0 => a
  | k + 1 => (fetchDecodeForward w (attemptState w object a k) object).2

/-- The object was recorded after this attempt: those before it failed, its batch was forwarded, and the entry
has the number of its lines. -/
structure RecordedAfter (w : World) (a : IngestActor) (object : ProcessObject) (k : Nat) (lines : List Str) :
    Prop where
  failed : ∀ j < k, ∃ e, (fetchDecodeForward w (attemptState w object a j) object).1 = .error e
  decoded : ∃ table, decodedAt w (attemptState w object a k).fetched object = some (table, lines)
  forwarded : (forwardBatch w.forward lines (attemptState w object a k).forwarder).1 = .ok ()
  entry : (processObject w a object).2.checkpoint.entries.get (encode object.bucket object.key) =
    some ⟨object.etag, lines.length⟩

/-- Each row of the object was handed over during the attempt after which it was recorded. -/
def RowsDelivered (w : World) (a : IngestActor) (object : ProcessObject) : Prop :=
  ∃ k < 3, ∃ lines, RecordedAfter w a object k lines ∧
    ∀ i line, lines[i]? = some line → HandedOver w.forward (attemptState w object a k).forwarder lines i line

/-! ### Attempts -/

theorem attemptState_succ (w : World) (object : ProcessObject) (a : IngestActor) (k : Nat) :
    attemptState w object a (k + 1) = attemptState w object (fetchDecodeForward w a object).2 k := by
  induction k with
  | zero => rfl
  | succ k ih => rw [attemptState, ih, attemptState]

/-- An attempt that succeeds has forwarded what it decoded. -/
theorem fetch_ok {w : World} {a b : IngestActor} {object : ProcessObject} {table : Str} {rows : Nat}
    (ok : fetchDecodeForward w a object = (.ok (table, rows), b)) :
    ∃ lines, decodedAt w a.fetched object = some (table, lines) ∧ rows = lines.length ∧
      (forwardBatch w.forward lines a.forwarder).1 = .ok () := by
  cases decoded : decodedAt w a.fetched object with
  | none =>
    obtain ⟨e, failed⟩ := fetch_none decoded
    rw [ok] at failed
    cases failed
  | some found =>
    obtain ⟨table', lines⟩ := found
    rw [fetch_some decoded] at ok
    cases outcome : (forwardBatch w.forward lines a.forwarder).1 with
    | error e =>
      rw [outcome] at ok
      cases ok
    | ok _ =>
      rw [outcome] at ok
      cases ok
      exact ⟨lines, rfl, rfl, outcome⟩

theorem attempt_recordedAfter {w : World} {object : ProcessObject} (n : Nat) (lastErr : Option IngestError)
    {a : IngestActor} (changed : (attempt w object n lastErr a).2.checkpoint ≠ a.checkpoint) :
    ∃ k < n, ∃ table lines, (∀ j < k, ∃ e, (fetchDecodeForward w (attemptState w object a j) object).1 = .error e) ∧
      decodedAt w (attemptState w object a k).fetched object = some (table, lines) ∧
      (forwardBatch w.forward lines (attemptState w object a k).forwarder).1 = .ok () ∧
      (attempt w object n lastErr a).2.checkpoint.entries.get (encode object.bucket object.key) =
        some ⟨object.etag, lines.length⟩ := by
  induction n generalizing a lastErr with
  | zero => exact (changed rfl).elim
  | succ n ih =>
    rw [attempt] at changed ⊢
    obtain ⟨same, _⟩ := fetch_frame w a object
    rcases fetched : fetchDecodeForward w a object with ⟨e | ⟨table, rows⟩, b⟩
    · rw [fetched] at changed same
      dsimp only at changed ⊢
      rw [← same] at changed
      obtain ⟨k, below, table, lines, failed, decoded, forwarded, entry⟩ := ih (some e) changed
      have next : ∀ j, attemptState w object a (j + 1) = attemptState w object b j := by
        intro j
        rw [attemptState_succ, fetched]
      refine ⟨k + 1, Nat.succ_lt_succ below, table, lines, fun j early => ?_, ?_, ?_, entry⟩
      · cases j with
        | zero => exact ⟨e, congrArg Prod.fst fetched⟩
        | succ j =>
          rw [next]
          exact failed j (Nat.lt_of_succ_lt_succ early)
      · rw [next]
        exact decoded
      · rw [next]
        exact forwarded
    · obtain ⟨lines, decoded, rfl, forwarded⟩ := fetch_ok fetched
      refine ⟨0, Nat.succ_pos n, table, lines, fun j early => (Nat.not_lt_zero j early).elim, decoded, forwarded, ?_⟩
      have entry := CheckpointStore.markProcessed_get b.checkpoint w.persists object.bucket object.key object.etag
        lines.length (encode object.bucket object.key)
      rw [if_pos rfl] at entry
      dsimp only
      unfold recordObject
      split <;> rename_i marked <;> rw [marked] at entry <;> exact entry

/-- A change of the checkpoint comes from an attempt that succeeded. -/
theorem recordedAfter_of_changed {w : World} {a : IngestActor} {object : ProcessObject}
    (changed : (processObject w a object).2.checkpoint ≠ a.checkpoint) :
    ∃ k < 3, ∃ lines, RecordedAfter w a object k lines := by
  rcases processObject_eq w a object with ⟨_, same⟩ | ⟨_, same | same⟩
  · have recorded := changed
    rw [same] at recorded
    obtain ⟨k, below, table, lines, failed, decoded, forwarded, entry⟩ := attempt_recordedAfter 3 none recorded
    exact ⟨k, below, lines, failed, ⟨table, decoded⟩, forwarded, by rw [same]; exact entry⟩
  all_goals
    rw [same] at changed
    exact (changed rfl).elim

/-! ### Rows -/

theorem RecordedAfter.handed {w : World} {a : IngestActor} {object : ProcessObject} {k : Nat} {lines : List Str}
    (recorded : RecordedAfter w a object k lines) :
    forwardBatch w.forward lines (attemptState w object a k).forwarder =
      (.ok (), (forwardBatch w.forward lines (attemptState w object a k).forwarder).2) :=
  Prod.ext recorded.forwarded rfl

/-- The configured table of the rows of an object. -/
def rowTable (config : Nautilus.NautilusIngestConfig) (key : Str) : Option Str :=
  (Nautilus.classifyObjectKey key).map (Nautilus.tableOf config)

/-- A world whose objects are decoded as Nautilus objects. -/
def decoding (w : World) (arrow : Nautilus.Arrow) (config : Nautilus.NautilusIngestConfig) : World :=
  { w with decodeFeatherToIlp := Nautilus.decodeFeatherToIlp arrow config }

theorem decodedAt_rows {w : World} {arrow : Nautilus.Arrow} {config : Nautilus.NautilusIngestConfig} {n : Nat}
    {object : ProcessObject} {table : Str} {lines : List Str}
    (decoded : decodedAt (decoding w arrow config) n object = some (table, lines)) :
    rowTable config object.key = some table ∧ lines ≠ [] ∧ ∀ line ∈ lines, ∃ rest, line = table ++ ',' :: rest := by
  unfold decodedAt at decoded
  split at decoded
  · obtain ⟨kind, classified, rfl, some, each⟩ := Nautilus.decodeFeatherToIlp_lines decoded
    exact ⟨by rw [rowTable, classified]; rfl, some, each⟩
  · cases decoded

theorem rowsDelivered_iff {w : World} {arrow : Nautilus.Arrow} {config : Nautilus.NautilusIngestConfig}
    {a : IngestActor} {object : ProcessObject}
    (changed : (processObject (decoding w arrow config) a object).2.checkpoint ≠ a.checkpoint) :
    RowsDelivered (decoding w arrow config) a object ↔
      ∀ table ∈ rowTable config object.key, table.head? ≠ some '\n' := by
  constructor
  · rintro ⟨k, _, lines, recorded, delivered⟩ table configured begins
    obtain ⟨table', decoded⟩ := recorded.decoded
    obtain ⟨same, some, each⟩ := decodedAt_rows decoded
    have sameTable : table' = table := by
      rw [same] at configured
      exact Option.some.inj configured
    have blank : ∀ line ∈ lines, isBlank (asBytes line) = true := by
      intro line member
      obtain ⟨rest, rfl⟩ := each line member
      exact (isBlank_row table' rest).mpr (sameTable ▸ begins)
    obtain ⟨first, rest, rfl⟩ := List.exists_cons_of_ne_nil some
    exact not_handsOver_of_blank recorded.handed blank 0 first (delivered 0 first rfl)
  · intro plain
    obtain ⟨k, below, lines, recorded⟩ := recordedAfter_of_changed changed
    obtain ⟨table, decoded⟩ := recorded.decoded
    obtain ⟨same, _, each⟩ := decodedAt_rows decoded
    refine ⟨k, below, lines, recorded, fun i line there => ?_⟩
    refine forwardBatch_handsOver recorded.handed there ?_
    obtain ⟨rest, rfl⟩ := each line (List.mem_of_getElem? there)
    rw [← Bool.not_eq_true, isBlank_row]
    exact plain table same

/-! ### Every run -/

/-- In every run, an object that is recorded was delivered, and its entry has the number of its rows, if and only
if the name of its table does not begin with a newline. -/
theorem recorded_delivered_iff (w : World) (arrow : Nautilus.Arrow) (config : Nautilus.NautilusIngestConfig)
    (checkpoint : CheckpointStore) (earlier : List ProcessObject) (object : ProcessObject)
    (changed : (processObject (decoding w arrow config)
      (run (decoding w arrow config) earlier { checkpoint }) object).2.checkpoint ≠
        (run (decoding w arrow config) earlier { checkpoint }).checkpoint) :
    RowsDelivered (decoding w arrow config) (run (decoding w arrow config) earlier { checkpoint }) object ↔
      ∀ table ∈ rowTable config object.key, table.head? ≠ some '\n' :=
  rowsDelivered_iff changed

/-- One trade: 50000.25 with precision 2, and 1 with precision 3. -/
def tradeBatch : Nautilus.RecordBatch where
  metadata := .collect [("instrument_id".toList, "BTCUSDT.BITUNIX".toList), ("price_precision".toList, "2".toList),
    ("size_precision".toList, "3".toList)]
  columns :=
    [("price".toList, .fixedSizeBinary fun _ => [0x59, 0x4B, 0x4C, 0, 0, 0, 0, 0]),
      ("size".toList, .fixedSizeBinary fun _ => [0xE8, 0x03, 0, 0, 0, 0, 0, 0]),
      ("aggressor_side".toList, .uint8 fun _ => 1), ("trade_id".toList, .utf8 fun _ => "t1".toList),
      ("ts_event".toList, .uint64 fun _ => 17)]
  numRows := 1

/-- A reader that knows the bytes of one object. -/
def oneTrade : Nautilus.Arrow where
  readStream bytes := if bytes = tradeObject then some [some tradeBatch] else none
  formatFixed raw precision :=
    if raw = 5000025 ∧ precision = 2 then "50000.25".toList
    else if raw = 1000 ∧ precision = 3 then "1".toList
    else []

example : Nautilus.decodeFeatherToIlp oneTrade .default (chunk none).key tradeObject = some ("trade_ticks".toList,
    ["trade_ticks,symbol=BTCUSDT,venue=BITUNIX price=50000.25,size=1,aggressor_side=\"BUYER\",trade_id=\"t1\" 17".toList]) := by
  decide +kernel

theorem recorded_delivered_iff_trade :
    RowsDelivered (decoding (tradesUnder steady) oneTrade .default)
      (run (decoding (tradesUnder steady) oneTrade .default) [] { checkpoint := {} }) (chunk none) := by
  have writes : (processObject (decoding (tradesUnder steady) oneTrade .default)
      (run (decoding (tradesUnder steady) oneTrade .default) [] { checkpoint := {} })
        (chunk none)).2.checkpoint.writes = 1 := by decide +kernel
  refine (recorded_delivered_iff (tradesUnder steady) oneTrade .default {} [] (chunk none) fun same => ?_).mpr
    (by decide +kernel)
  rw [same] at writes
  cases writes

/-- A table whose configured name begins with a newline. -/
def brokenTable : Nautilus.NautilusIngestConfig := ⟨"\ntrades".toList, "quote_ticks".toList⟩

/-- One row is recorded and none is sent. -/
theorem recorded_undelivered :
    (processObject (decoding (tradesUnder steady) oneTrade brokenTable) {} (chunk none)).1 =
      .ok (.ingested "\ntrades".toList 1) ∧
    (processObject (decoding (tradesUnder steady) oneTrade brokenTable) {} (chunk none)).2.forwarder.routed = 0 ∧
    ¬ RowsDelivered (decoding (tradesUnder steady) oneTrade brokenTable) {} (chunk none) := by
  have writes : (processObject (decoding (tradesUnder steady) oneTrade brokenTable) {}
      (chunk none)).2.checkpoint.writes = 1 := by decide +kernel
  refine ⟨by decide +kernel, by decide +kernel, fun delivered => ?_⟩
  have plain := (rowsDelivered_iff (fun same => by rw [same] at writes; cases writes)).mp delivered
  exact plain "\ntrades".toList (by decide +kernel) (by decide +kernel)

end IngestActor
end QuestRouter.Ingest
