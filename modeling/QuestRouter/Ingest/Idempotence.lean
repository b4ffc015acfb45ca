import QuestRouter.Ingest.Retries

/-!
# Repeated messages for one object

The checkpoint has the etag of the message that was recorded last, not the etag of the stored object. A
message is skipped exactly if it carries an etag and that is the one recorded.
-/

namespace QuestRouter.Ingest
open Text Protocol

namespace IngestActor

/-- The object was forwarded, also if the checkpoint file could not be written after it. -/
def records : Except IngestError Outcome → Bool
  | .ok (.ingested _ _) => true
  | .error .checkpoint => true
  | _ => false

/-- The etag recorded last under a key of the checkpoint. -/
def lastRecorded (w : World) (object : Str) : List ProcessObject → IngestActor → Option (Option Str)
  | [], _ => none
  | message :: later, a =>
    (lastRecorded w object later (processObject w a message).2).or
      (if records (processObject w a message).1 = true ∧ object = encode message.bucket message.key then
        some message.etag
      else none)

/-! ### What a message does to the checkpoint -/

theorem fetch_frame (w : World) (a : IngestActor) (object : ProcessObject) :
    (fetchDecodeForward w a object).2.checkpoint = a.checkpoint ∧
      (fetchDecodeForward w a object).1 ≠ .error .checkpoint := by
  cases decoded : decodedAt w a.fetched object with
  | none =>
    unfold decodedAt at decoded
    unfold fetchDecodeForward
    split
    · rename_i e missing
      refine ⟨rfl, ?_⟩
      rintro ⟨⟩
      unfold getObject at missing
      split at missing
      · split at missing <;> cases missing
      · cases missing
    · rename_i found
      simp only [found] at decoded
      rw [decoded]
      exact ⟨rfl, nofun⟩
  | some result =>
    obtain ⟨table, lines⟩ := result
    rw [fetch_some decoded]
    refine ⟨rfl, ?_⟩
    dsimp only
    split <;> exact nofun

def recordedEtag (a : IngestActor) (object : Str) : Option (Option Str) :=
  (a.checkpoint.entries.get object).map ProcessedMeta.etag

theorem recordObject_recorded (w : World) (a : IngestActor) (message : ProcessObject) (table : Str) (rows : Nat)
    (object : Str) : records (recordObject w a message table rows).1 = true ∧
      recordedEtag (recordObject w a message table rows).2 object =
        if object = encode message.bucket message.key then some message.etag else recordedEtag a object := by
  have entry := CheckpointStore.markProcessed_get a.checkpoint w.persists message.bucket message.key
    message.etag rows object
  unfold recordObject
  unfold CheckpointStore.markProcessed at entry ⊢
  cases w.persists a.checkpoint.writes
  all_goals
    refine ⟨rfl, ?_⟩
    simp only [recordedEtag, entry]
    split <;> rfl

theorem attempt_recorded (w : World) (message : ProcessObject) (n : Nat) {lastErr : Option IngestError}
    (notYet : lastErr ≠ some .checkpoint) (a : IngestActor) (object : Str) :
    recordedEtag (attempt w message n lastErr a).2 object =
      if records (attempt w message n lastErr a).1 = true ∧ object = encode message.bucket message.key then
        some message.etag
      else recordedEtag a object := by
  induction n generalizing a lastErr with
  | zero =>
    rw [attempt]
    cases lastErr with
    | none => rfl
    | some e =>
      cases e with
      | checkpoint => exact (notYet rfl).elim
      | _ => rfl
  | succ n ih =>
    rw [attempt]
    obtain ⟨kept, other⟩ := fetch_frame w a message
    rcases fetched : fetchDecodeForward w a message with ⟨e | ⟨table, rows⟩, b⟩
    all_goals
      rw [fetched] at kept other
      have same : recordedEtag b object = recordedEtag a object := by rw [recordedEtag, kept, recordedEtag]
      rw [← same]
    · have next : some e ≠ some IngestError.checkpoint := by
        intro eq
        exact other (congrArg Except.error (Option.some.inj eq))
      exact ih next b
    · obtain ⟨recorded, entry⟩ := recordObject_recorded w b message table rows object
      rw [entry, recorded]
      simp only [true_and]

theorem processObject_recorded (w : World) (a : IngestActor) (message : ProcessObject) (object : Str) :
    recordedEtag (processObject w a message).2 object =
      if records (processObject w a message).1 = true ∧ object = encode message.bucket message.key then
        some message.etag
      else recordedEtag a object := by
  rcases processObject_eq w a message with ⟨_, same⟩ | ⟨_, same | same⟩
  · have fresh : (none : Option IngestError) ≠ some .checkpoint := nofun
    rw [same]
    exact attempt_recorded w message 3 fresh a object
  all_goals
    rw [same]
    rfl

/-- After any messages an entry has the etag that was recorded last, or is as it was loaded. -/
theorem run_recorded (w : World) (messages : List ProcessObject) (a : IngestActor) (object : Str) :
    recordedEtag (run w messages a) object =
      (lastRecorded w object messages a).or (recordedEtag a object) := by
  induction messages generalizing a with
  | nil => rfl
  | cons message later ih =>
    have step : run w (message :: later) a = run w later (processObject w a message).2 := rfl
    rw [step, ih, lastRecorded, processObject_recorded, Option.or_assoc]
    congr 1
    split <;> rfl

/-! ### When a message is skipped -/

theorem attempt_not_skipped (w : World) (message : ProcessObject) (n : Nat) (lastErr : Option IngestError)
    (a : IngestActor) : (attempt w message n lastErr a).1 ≠ .ok .skipped := by
  induction n generalizing a lastErr with
  | zero => simp [attempt]
  | succ n ih =>
    rw [attempt]
    rcases fetchDecodeForward w a message with ⟨e | ⟨table, rows⟩, b⟩
    · exact ih (some e) b
    · dsimp only
      unfold recordObject
      split <;> simp

def Wanted (w : World) (key : Str) : Prop :=
  shouldIngestKey key = true ∧ matchesPrefix key w.keyPrefix = true

theorem wanted_of_ingested {w : World} {a : IngestActor} {message : ProcessObject} {table : Str} {rows : Nat}
    (h : (processObject w a message).1 = .ok (.ingested table rows)) : Wanted w message.key := by
  unfold Wanted
  rcases processObject_eq w a message with ⟨taken, _⟩ | ⟨_, same | same⟩
  · simp only [attempted, Bool.and_eq_true] at taken
    exact taken.1
  all_goals
    rw [same] at h
    cases h

theorem skipped_iff {w : World} {a : IngestActor} {message : ProcessObject} (wanted : Wanted w message.key) :
    (processObject w a message).1 = .ok .skipped ↔
      message.etag.isSome = true ∧
        recordedEtag a (encode message.bucket message.key) = some message.etag := by
  rw [recordedEtag, ← CheckpointStore.shouldProcess_eq_false]
  unfold processObject
  rw [wanted.1, wanted.2]
  cases a.checkpoint.shouldProcess message.bucket message.key message.etag with
  | false => exact iff_of_true rfl rfl
  | true => exact iff_of_false (attempt_not_skipped w message 3 none a) nofun

/-! ### Runs -/

/-- A later message for an object that was forwarded and has had one etag in the store since. -/
structure Repeated (w : World) (a : IngestActor) (first : ProcessObject) (between : List ProcessObject)
    (second : ProcessObject) : Prop where
  bucket : second.bucket = first.bucket
  key : second.key = first.key
  forwarded : ∃ table rows, (processObject w a first).1 = .ok (.ingested table rows)
  unchanged : ∃ etag, ∀ n, a.fetched ≤ n → n ≤ (run w (first :: between) a).fetched →
    ∃ bytes, w.stored n first.bucket first.key = some (bytes, some etag)

/-- Every later message for an object that was forwarded is skipped, as long as the object in the store
has the same etag. -/
def Idempotent (w : World) (checkpoint : CheckpointStore) (messages : List ProcessObject) : Prop :=
  ∀ before first between second after, messages = before ++ first :: between ++ second :: after →
    Repeated w (run w before { checkpoint }) first between second →
      (processObject w (run w (before ++ first :: between) { checkpoint }) second).1 = .ok .skipped

/-- The etag that the second message carries is there, and is that of the message recorded last. -/
def SameEtag (w : World) (a : IngestActor) (first : ProcessObject) (between : List ProcessObject)
    (second : ProcessObject) : Prop :=
  second.etag.isSome = true ∧
    lastRecorded w (encode second.bucket second.key) (first :: between) a = some second.etag

theorem lastRecorded_of_ingested {w : World} {a : IngestActor} {message : ProcessObject} {table : Str}
    {rows : Nat} (h : (processObject w a message).1 = .ok (.ingested table rows)) (later : List ProcessObject) :
    (lastRecorded w (encode message.bucket message.key) (message :: later) a).isSome = true := by
  rw [lastRecorded, h, Option.isSome_or]
  simp [records]

/-- A run is idempotent exactly if each repeated message carries the etag that was recorded last for its
object, and there is one. -/
theorem idempotent_iff (w : World) (checkpoint : CheckpointStore) (messages : List ProcessObject) :
    Idempotent w checkpoint messages ↔
      ∀ before first between second after, messages = before ++ first :: between ++ second :: after →
        Repeated w (run w before { checkpoint }) first between second →
          SameEtag w (run w before { checkpoint }) first between second := by
  unfold Idempotent
  refine forall_congr' fun before => forall_congr' fun first => forall_congr' fun between =>
    forall_congr' fun second => forall_congr' fun after => forall_congr' fun _ =>
      forall_congr' fun repeated => ?_
  obtain ⟨table, rows, forwarded⟩ := repeated.forwarded
  have wanted : Wanted w second.key := by
    rw [repeated.key]
    exact wanted_of_ingested forwarded
  have split : run w (before ++ first :: between) { checkpoint } =
      run w (first :: between) (run w before { checkpoint }) := List.foldl_append
  -- The first message has been recorded, so the entry is one of this run.
  have recorded := lastRecorded_of_ingested forwarded between
  rw [← repeated.bucket, ← repeated.key] at recorded
  rw [skipped_iff wanted, split, run_recorded, Option.or_of_isSome recorded, SameEtag]

/-- Two messages without an etag for an object that does not change: its rows are forwarded twice. -/
theorem unlabelled_object_forwarded_twice :
    ¬ Idempotent (tradesUnder steady) {} [chunk none, chunk none] := by
  intro idempotent
  have skipped := idempotent [] (chunk none) [] (chunk none) [] rfl
    ⟨rfl, rfl, ⟨"trade_ticks".toList, 2, by decide +kernel⟩, "e1".toList, fun _ _ _ => ⟨tradeObject, rfl⟩⟩
  exact absurd skipped (by decide +kernel)

end IngestActor
end QuestRouter.Ingest
