import QuestRouter.Ingest.Actor
import QuestRouter.Metadata.Actor

/-!
# Retried objects

An attempt that fails in the middle of its batch may leave lines of it with the forwarder, which sends
them beside those of the next attempt, or of the next object. Each row is written once exactly if no
failing batch leaves a line behind.
-/

namespace QuestRouter.Ingest
open Text Protocol IlpForwarder

namespace IngestActor

def decodedAt (w : World) (n : Nat) (object : ProcessObject) : Option (Str × List Str) :=
  match getObject w n object.key with
  | .ok (bytes, _) => w.decodeFeatherToIlp object.key bytes
  | .error _ => none

/-- The batches of the attempts that are left, each with the forwarder it is given. -/
def attemptBatches (w : World) (object : ProcessObject) : Nat → IngestActor → List (IlpForwarder × List Str)
  | 0, _ => []
  | n + 1, a =>
    (decodedAt w a.fetched object).toList.map (fun decoded => (a.forwarder, decoded.2)) ++
      match fetchDecodeForward w a object with
      | (.ok _, _) => []
      | (.error _, b) => attemptBatches w object n b

def attempted (w : World) (a : IngestActor) (object : ProcessObject) : Bool :=
  shouldIngestKey object.key && matchesPrefix object.key w.keyPrefix &&
    a.checkpoint.shouldProcess object.bucket object.key object.etag

def objectBatches (w : World) (a : IngestActor) (object : ProcessObject) : List (IlpForwarder × List Str) :=
  if attempted w a object then attemptBatches w object 3 a else []

theorem processObject_eq (w : World) (a : IngestActor) (object : ProcessObject) :
    (attempted w a object = true ∧ processObject w a object = attempt w object 3 none a) ∨
      attempted w a object = false ∧
        (processObject w a object = (.ok .ignored, a) ∨ processObject w a object = (.ok .skipped, a)) := by
  unfold processObject attempted
  cases shouldIngestKey object.key with
  | false => exact .inr ⟨rfl, .inl rfl⟩
  | true =>
    cases matchesPrefix object.key w.keyPrefix with
    | false => exact .inr ⟨rfl, .inl rfl⟩
    | true =>
      cases a.checkpoint.shouldProcess object.bucket object.key object.etag with
      | false => exact .inr ⟨rfl, .inr rfl⟩
      | true => exact .inl ⟨rfl, rfl⟩

/-! ### One attempt -/

theorem fetch_none {w : World} {a : IngestActor} {object : ProcessObject}
    (nothing : decodedAt w a.fetched object = none) :
    ∃ e, fetchDecodeForward w a object = (.error e, { a with fetched := a.fetched + 1 }) := by
  unfold decodedAt at nothing
  unfold fetchDecodeForward
  split
  · exact ⟨_, rfl⟩
  · rename_i found
    simp only [found] at nothing
    rw [nothing]
    exact ⟨_, rfl⟩

theorem fetch_some {w : World} {a : IngestActor} {object : ProcessObject} {table : Str} {lines : List Str}
    (decoded : decodedAt w a.fetched object = some (table, lines)) :
    fetchDecodeForward w a object =
      (match (forwardBatch w.forward lines a.forwarder).1 with
        | .ok () => .ok (table, lines.length)
        | .error e => .error (.forward e),
       { a with forwarder := (forwardBatch w.forward lines a.forwarder).2, fetched := a.fetched + 1 }) := by
  unfold decodedAt at decoded
  unfold fetchDecodeForward
  split
  · rename_i missing
    rw [missing] at decoded
    cases decoded
  · rename_i found
    simp only [found] at decoded
    rw [decoded]
    dsimp only
    rcases forwardBatch w.forward lines a.forwarder with ⟨_ | _, f⟩ <;> rfl

@[simp] theorem recordObject_forwarder (w : World) (a : IngestActor) (object : ProcessObject) (table : Str)
    (rows : Nat) : (recordObject w a object table rows).2.forwarder = a.forwarder := by
  unfold recordObject
  split <;> rfl

/-! ### What is written -/

/-- Beyond what the failing batches sent, which is no whole line, the lines of the last batch are sent,
each once and to its shard. -/
def WritesOnce (out : Outside) (batches : List (IlpForwarder × List Str)) (f g : IlpForwarder) : Prop :=
  batches = [] ∧ g = f ∨
    ∃ earlier last, batches = earlier ++ [last] ∧ ∀ id, ∃ parts : List Bytes,
      (∀ part ∈ parts, ∃ batch ∈ earlier, Fragment (textLines (batchCalls batch.2)) part) ∧
      g.sentTo id = f.sentTo id ++ parts.flatten ++
        (routedTo out id last.1.routed (textLines (batchCalls last.2))).flatMap terminated

/-- The batch does not leave a line with the forwarder if it fails. -/
def LeavesNoLine (out : Outside) (batch : IlpForwarder × List Str) : Prop :=
  (forwardBatch out batch.2 batch.1).1 ≠ .ok () →
    ¬ HoldsLine out batch.1 (textLines (batchCalls batch.2)) (forwardBatch out batch.2 batch.1).2

/-- A failing batch of the object leaves no line, and if the object is done with, each row is written at
most once. -/
def RetriesOnce (w : World) (a : IngestActor) (object : ProcessObject) : Prop :=
  (∀ batch ∈ objectBatches w a object, LeavesNoLine w.forward batch) ∧
    ∀ outcome, (processObject w a object).1 = .ok outcome →
      WritesOnce w.forward (objectBatches w a object) a.forwarder (processObject w a object).2.forwarder

/-- The call that ends a failing batch leaves no line of it. -/
def BatchStopsClean (out : Outside) (batch : IlpForwarder × List Str) : Prop :=
  StopsClean out batch.1 [] (batchCalls batch.2) batch.1

theorem WritesOnce.cons {out : Outside} {rest : List (IlpForwarder × List Str)} {f f' g : IlpForwarder}
    {lines : List Str} (later : WritesOnce out rest f' g) (some : rest ≠ [])
    (leaves : ∀ id, LeavesFragment f (textLines (batchCalls lines)) f' id) :
    WritesOnce out ((f, lines) :: rest) f g := by
  rcases later with ⟨none, _⟩ | ⟨earlier, last, rfl, sent⟩
  · exact (some none).elim
  refine .inr ⟨(f, lines) :: earlier, last, rfl, fun id => ?_⟩
  obtain ⟨parts, fragments, total⟩ := sent id
  have before : ∀ part ∈ parts, ∃ batch ∈ (f, lines) :: earlier, Fragment (textLines (batchCalls batch.2)) part := by
    intro part member
    obtain ⟨batch, there, fragment⟩ := fragments part member
    exact ⟨batch, List.mem_cons_of_mem _ there, fragment⟩
  rcases (leaves id).2 with same | ⟨part, fragment, more⟩
  · exact ⟨parts, before, by rw [total, same]⟩
  · refine ⟨part :: parts, fun p member => ?_, by rw [total, more]; simp⟩
    rcases List.mem_cons.mp member with rfl | there
    · exact ⟨_, List.mem_cons_self, fragment⟩
    · exact before p there

/-- The attempts that are left keep the forwarder drained, and write each row at most once. -/
theorem attempt_writesOnce {w : World} {object : ProcessObject} (n : Nat) (lastErr : Option IngestError)
    {a : IngestActor} (drained : Drained a.forwarder)
    (clean : ∀ batch ∈ attemptBatches w object n a, BatchStopsClean w.forward batch) :
    Drained (attempt w object n lastErr a).2.forwarder ∧
      ∀ outcome, (attempt w object n lastErr a).1 = .ok outcome → attemptBatches w object n a ≠ [] ∧
        WritesOnce w.forward (attemptBatches w object n a) a.forwarder (attempt w object n lastErr a).2.forwarder := by
  induction n generalizing a lastErr with
  | zero => exact ⟨drained, nofun⟩
  | succ n ih =>
    rw [attempt, attemptBatches] at *
    cases decoded : decodedAt w a.fetched object with
    | none =>
      obtain ⟨e, step⟩ := fetch_none decoded
      rw [decoded, step] at clean
      rw [step]
      exact ih (some e) drained clean
    | some result =>
      obtain ⟨table, lines⟩ := result
      rw [decoded] at clean
      rw [fetch_some decoded] at clean ⊢
      have first : BatchStopsClean w.forward (a.forwarder, lines) :=
        clean _ (List.mem_append_left _ List.mem_cons_self)
      rcases batch : forwardBatch w.forward lines a.forwarder with ⟨e | _, f⟩
      · rw [batch] at clean
        have leaves := forwardBatch_fragment drained batch first
        obtain ⟨drained', writes⟩ := ih (some (.forward e))
          (a := { a with forwarder := f, fetched := a.fetched + 1 }) (fun id => (leaves id).1)
          fun b member => clean b (List.mem_append_right _ member)
        refine ⟨drained', fun outcome ok => ⟨List.cons_ne_nil _ _, ?_⟩⟩
        obtain ⟨some, later⟩ := writes outcome ok
        exact later.cons some leaves
      · obtain ⟨drained', _, sent⟩ := forwardBatch_sent drained batch
        refine ⟨by rw [recordObject_forwarder]; exact drained', fun outcome _ => ⟨List.cons_ne_nil _ _, ?_⟩⟩
        refine .inr ⟨[], (a.forwarder, lines), rfl, fun id => ⟨[], nofun, ?_⟩⟩
        rw [recordObject_forwarder, List.flatten_nil, List.append_nil]
        exact sent id

theorem processObject_writesOnce {w : World} {a : IngestActor} {object : ProcessObject}
    (drained : Drained a.forwarder)
    (clean : ∀ batch ∈ objectBatches w a object, BatchStopsClean w.forward batch) :
    Drained (processObject w a object).2.forwarder ∧
      ∀ outcome, (processObject w a object).1 = .ok outcome →
        WritesOnce w.forward (objectBatches w a object) a.forwarder (processObject w a object).2.forwarder := by
  unfold objectBatches at *
  rcases processObject_eq w a object with ⟨taken, same⟩ | ⟨left, same | same⟩
  · rw [if_pos taken] at clean ⊢
    rw [same]
    obtain ⟨drained', writes⟩ := attempt_writesOnce 3 none drained clean
    exact ⟨drained', fun outcome ok => (writes outcome ok).2⟩
  all_goals
    rw [same, left]
    exact ⟨drained, fun _ _ => .inl ⟨rfl, rfl⟩⟩

theorem run_drained {w : World} {objects : List ProcessObject} {a : IngestActor} (drained : Drained a.forwarder)
    (clean : ∀ before object after, objects = before ++ object :: after →
      ∀ batch ∈ objectBatches w (run w before a) object, BatchStopsClean w.forward batch) :
    Drained (run w objects a).forwarder := by
  induction objects generalizing a with
  | nil => exact drained
  | cons object objects ih =>
    have first := (processObject_writesOnce drained (clean [] object objects rfl)).1
    apply ih first
    intro before next after split
    exact clean (object :: before) next after (by rw [split, List.cons_append])

/-- In every run from a new forwarder each row is written at most once and no failing batch leaves a line,
exactly if the call that ends a failing batch leaves no line of it. -/
theorem run_retriesOnce_iff (w : World) (checkpoint : CheckpointStore) (objects : List ProcessObject) :
    (∀ before object after, objects = before ++ object :: after →
      RetriesOnce w (run w before { checkpoint }) object) ↔
    ∀ before object after, objects = before ++ object :: after →
      ∀ batch ∈ objectBatches w (run w before { checkpoint }) object, BatchStopsClean w.forward batch := by
  constructor
  · intro once before object after split batch member
    exact (forwardBatch_holdsLine_iff w.forward batch.1 batch.2).mp
      ((once before object after split).1 batch member)
  · intro clean before object after split
    have drained : Drained (run w before { checkpoint }).forwarder := by
      apply run_drained drained_new
      intro b o rest eq
      refine clean b o (rest ++ object :: after) ?_
      rw [split, eq, List.append_assoc, List.cons_append]
    refine ⟨fun batch member => ?_, (processObject_writesOnce drained (clean before object after split)).2⟩
    exact (forwardBatch_holdsLine_iff w.forward batch.1 batch.2).mpr (clean before object after split batch member)

/-! ### A route that fails in the middle of a batch -/

def trade (id : Str) : Str := "trade_ticks,symbol=BTCUSDT,venue=BITUNIX trade_id=".toList ++ id

/-- The shards are down when the second line is routed, and up again when the batch is retried. -/
def flapping : Outside :=
  { steady with snapshot := fun n =>
      if n = 1 then Metadata.MetadataActor.run (steady.snapshot n) [⟨0, false, true⟩, ⟨1, false, true⟩]
      else steady.snapshot n }

/-- In place of the bytes of a stored stream, which are not looked into here. -/
def tradeObject : Bytes := asBytes "ARROW1".toList

def tradesUnder (forward : Outside) : World where
  forward
  bucket := "market-data".toList
  keyPrefix := "live/".toList
  objectPath key := key
  stored _ _ _ := some (tradeObject, some "e1".toList)
  fetches _ := true
  decodeFeatherToIlp _ bytes :=
    if bytes = tradeObject then some ("trade_ticks".toList, [trade "1".toList, trade "2".toList]) else none
  persists _ := true

def chunk (etag : Option Str) : ProcessObject where
  bucket := "market-data".toList
  key := "live/data/trades/BTCUSDT.BITUNIX/chunk.feather".toList
  etag

/-- The second attempt succeeds, and the first row has been written twice. -/
theorem retry_writes_row_twice :
    (processObject (tradesUnder flapping) {} (chunk none)).1 = .ok (.ingested "trade_ticks".toList 2) ∧
    (processObject (tradesUnder flapping) {} (chunk none)).2.forwarder.sentTo 0 =
      [trade "1".toList, trade "1".toList, trade "2".toList].flatMap (fun row => terminated (asBytes row)) ∧
    ¬ RetriesOnce (tradesUnder flapping) {} (chunk none) := by
  refine ⟨by decide +kernel, by decide +kernel, fun once => ?_⟩
  have first : (({}, [trade "1".toList, trade "2".toList]) : IlpForwarder × List Str) ∈
      objectBatches (tradesUnder flapping) {} (chunk none) := by
    rw [objectBatches, if_pos (by decide +kernel)]
    exact List.mem_append_left _ List.mem_cons_self
  refine once.1 _ first (by decide +kernel) (holdsLine_iff.mpr ⟨0, asBytes (trade "1".toList), ?_⟩)
  exact ⟨[], by decide +kernel, by decide +kernel⟩

end IngestActor
end QuestRouter.Ingest
