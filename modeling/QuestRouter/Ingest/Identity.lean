import QuestRouter.Ingest.Delivered
import QuestRouter.Ingest.Events
import QuestRouter.Ingest.Reconcile

/-!
# Identity of ingested objects

An object is recorded under the bucket and the key of its message, but the fetcher reads from the one bucket it
is configured with, at the path of the key. So what is recorded was read under that name exactly if the bucket
is the configured one and the path of the key is the key.
-/

namespace QuestRouter.Ingest
open Text Routing Metadata Protocol IlpForwarder

namespace IngestActor

/-- A world with this fetcher, whose objects are decoded as Nautilus objects. -/
def fetchedBy (fetcher : ObjectFetcher) (w : World) (arrow : Nautilus.Arrow) (config : Nautilus.NautilusIngestConfig) : World :=
  decoding { w with bucket := fetcher.bucket, keyPrefix := fetcher.keyPrefix, objectPath := fetcher.objectPath } arrow config

/-- The lines that were forwarded are those of the object stored under the bucket and the key of the message. -/
def OwnRows (w : World) (a : IngestActor) (object : ProcessObject) : Prop :=
  ∃ k < 3, ∃ lines, RecordedAfter w a object k lines ∧ ∃ bytes etag table,
    w.stored (attemptState w object a k).fetched object.bucket object.key = some (bytes, etag) ∧
      w.decodeFeatherToIlp object.key bytes = some (table, lines)

/-- What is stored under any other bucket and key makes no difference. -/
def NoOtherRows (w : World) (a : IngestActor) (object : ProcessObject) : Prop :=
  ∀ stored, (∀ n, stored n object.bucket object.key = w.stored n object.bucket object.key) →
    processObject { w with stored } a object = processObject w a object

/-- Whatever the actor and the object store hold, an object that is recorded was read under its own name. -/
def KeepsIdentity (fetcher : ObjectFetcher) (config : Nautilus.NautilusIngestConfig) (object : ProcessObject) : Prop :=
  ∀ w arrow a, (processObject (fetchedBy fetcher w arrow config) a object).2.checkpoint ≠ a.checkpoint →
    OwnRows (fetchedBy fetcher w arrow config) a object ∧ NoOtherRows (fetchedBy fetcher w arrow config) a object

/-- Every object that the webhook sends keeps its identity. -/
def AnnouncedKept (fromStr : Str → Option S3NotificationEnvelope) (http : HttpState) (fetcher : ObjectFetcher)
    (config : Nautilus.NautilusIngestConfig) (body : Str) : Prop :=
  ∀ room, ∀ object ∈ (ingestEvents fromStr http body room).2, KeepsIdentity fetcher config object

/-- The fetcher reads from the bucket of the object, at a path that is its key. -/
def AtHome (fetcher : ObjectFetcher) (object : ProcessObject) : Prop :=
  object.bucket = fetcher.bucket ∧ fetcher.objectPath object.key = object.key

instance (fetcher : ObjectFetcher) (object : ProcessObject) : Decidable (AtHome fetcher object) :=
  inferInstanceAs (Decidable (_ ∧ _))

/-- The key is under the fetcher's prefix and says what is in the object. -/
def Readable (fetcher : ObjectFetcher) (object : ProcessObject) : Prop :=
  matchesPrefix object.key fetcher.keyPrefix = true ∧ (Nautilus.classifyObjectKey object.key).isSome = true

/-- Every object that the webhook sends, and the actor can read, is at home. -/
def AnnouncedAtHome (fromStr : Str → Option S3NotificationEnvelope) (http : HttpState) (fetcher : ObjectFetcher)
    (body : Str) : Prop :=
  ∀ room, ∀ object ∈ (ingestEvents fromStr http body room).2, Readable fetcher object → AtHome fetcher object

/-! ### Objects at home -/

theorem getObject_ok {w : World} {n : Nat} {key : Str} {found : Bytes × Option Str}
    (ok : getObject w n key = .ok found) : w.stored n w.bucket (w.objectPath key) = some found := by
  unfold getObject at ok
  split at ok
  · split at ok
    · rename_i there
      cases ok
      exact there
    · cases ok
  · cases ok

theorem readable_of_recorded {fetcher : ObjectFetcher} {w : World} {arrow : Nautilus.Arrow}
    {config : Nautilus.NautilusIngestConfig} {a : IngestActor} {object : ProcessObject}
    (changed : (processObject (fetchedBy fetcher w arrow config) a object).2.checkpoint ≠ a.checkpoint) :
    Readable fetcher object := by
  obtain ⟨k, _, lines, recorded⟩ := recordedAfter_of_changed changed
  obtain ⟨table, decoded⟩ := recorded.decoded
  obtain ⟨named, _⟩ := decodedAt_rows decoded
  refine ⟨?_, ?_⟩
  · rcases processObject_eq (fetchedBy fetcher w arrow config) a object with ⟨taken, _⟩ | ⟨_, same | same⟩
    · simp only [attempted, Bool.and_eq_true] at taken
      exact taken.1.2
    all_goals
      rw [same] at changed
      exact (changed rfl).elim
  · obtain ⟨kind, classified, _⟩ := Option.map_eq_some_iff.mp named
    rw [classified]
    rfl

theorem ownRows_of_atHome {w : World} {a : IngestActor} {object : ProcessObject}
    (home : object.bucket = w.bucket ∧ w.objectPath object.key = object.key)
    (changed : (processObject w a object).2.checkpoint ≠ a.checkpoint) : OwnRows w a object := by
  obtain ⟨k, below, lines, recorded⟩ := recordedAfter_of_changed changed
  obtain ⟨table, decoded⟩ := recorded.decoded
  refine ⟨k, below, lines, recorded, ?_⟩
  unfold decodedAt at decoded
  split at decoded
  · rename_i bytes etag fetched
    have there := getObject_ok fetched
    rw [← home.1, home.2] at there
    exact ⟨bytes, etag, table, there, decoded⟩
  · cases decoded

/-- Two worlds that differ in what is stored elsewhere fetch the same. -/
theorem fetch_congr {w : World} {object : ProcessObject} {stored : Nat → Str → Str → Option (Bytes × Option Str)}
    (same : ∀ n, stored n w.bucket (w.objectPath object.key) = w.stored n w.bucket (w.objectPath object.key))
    (a : IngestActor) : fetchDecodeForward { w with stored } a object = fetchDecodeForward w a object := by
  have get : getObject { w with stored } a.fetched object.key = getObject w a.fetched object.key := by
    simp only [getObject, same]
  simp only [fetchDecodeForward, get]

theorem noOtherRows_of_atHome {w : World} {object : ProcessObject}
    (home : object.bucket = w.bucket ∧ w.objectPath object.key = object.key) (a : IngestActor) :
    NoOtherRows w a object := by
  intro stored same
  rw [home.1] at same
  nth_rewrite 1 2 [← home.2] at same
  have attempts : ∀ n lastErr b, attempt { w with stored } object n lastErr b = attempt w object n lastErr b := by
    intro n
    induction n with
    | zero => exact fun _ _ => rfl
    | succ n ih =>
      intro lastErr b
      rw [attempt, attempt, fetch_congr same]
      rcases fetchDecodeForward w b object with ⟨e | ⟨table, rows⟩, c⟩
      · exact ih (some e) c
      · rfl
  simp only [processObject, attempts]

/-! ### Objects elsewhere -/

/-- A batch with one row, whatever kind of row is asked for. -/
def eitherBatch : Nautilus.RecordBatch where
  metadata := ∅
  columns :=
    ["price", "size", "bid_price", "ask_price", "bid_size", "ask_size"].map
        (fun name => (name.toList, .fixedSizeBinary fun _ => [1, 0, 0, 0, 0, 0, 0, 0])) ++
      [("aggressor_side".toList, .uint8 fun _ => 1), ("trade_id".toList, .utf8 fun _ => "t1".toList),
        ("ts_event".toList, .uint64 fun _ => 17)]
  numRows := 1

def eitherArrow : Nautilus.Arrow where
  readStream _ := some [some eitherBatch]
  formatFixed _ _ := "0.00000001".toList

theorem eitherArrow_decodes (config : Nautilus.NautilusIngestConfig) {key : Str} (bytes : Bytes)
    (named : (Nautilus.classifyObjectKey key).isSome = true) :
    ∃ table lines, Nautilus.decodeFeatherToIlp eitherArrow config key bytes = some (table, lines) := by
  obtain ⟨kind, classified⟩ := Option.isSome_iff_exists.mp named
  simp only [Nautilus.decodeFeatherToIlp, classified, Option.bind_eq_bind, Option.bind_some]
  cases kind <;> exact ⟨_, _, rfl⟩

/-- Only the object that the fetcher reads for the key is stored. -/
def onlyFetched (fetcher : ObjectFetcher) (key : Str) : World where
  forward := steady
  bucket := fetcher.bucket
  keyPrefix := fetcher.keyPrefix
  objectPath := fetcher.objectPath
  stored _ bucket location :=
    if bucket = fetcher.bucket ∧ location = fetcher.objectPath key then some ([], none) else none
  fetches _ := true
  decodeFeatherToIlp _ _ := none
  persists _ := true

theorem steady_never_fails (f : IlpForwarder) (call : Call) : ¬ Fails steady f call := by
  cases call with
  | flush => simp [Fails, FlushFails, steady]
  | line bytes =>
    rintro ⟨_, fails⟩
    have routed : ∃ shard, nextShard steady f bytes = .ok shard := ⟨_, sendingKey_shardForKey _ _ _ _⟩
    obtain ⟨shard, target⟩ := routed
    rw [target] at fails
    simp [EarlyWriteFails, steady] at fails

theorem steady_forwards (lines : List Str) (f : IlpForwarder) : (forwardBatch steady lines f).1 = .ok () := by
  rw [forwardBatch_eq]
  generalize lines.map (fun line => Call.line (asBytes line)) ++ [.flush] = calls
  induction calls generalizing f with
  | nil => rfl
  | cons call calls ih =>
    rw [performAll_ok calls (perform_of_not_fails (steady_never_fails f call))]
    exact ih _

theorem onlyFetched_records {fetcher : ObjectFetcher} (config : Nautilus.NautilusIngestConfig) {object : ProcessObject}
    (wanted : shouldIngestKey object.key = true) (readable : Readable fetcher object) :
    (processObject (fetchedBy fetcher (onlyFetched fetcher object.key) eitherArrow config) {} object).2.checkpoint.writes
      = 1 := by
  obtain ⟨table, lines, decoded⟩ := eitherArrow_decodes config [] readable.2
  have taken : attempted (fetchedBy fetcher (onlyFetched fetcher object.key) eitherArrow config) {} object = true := by
    simp only [attempted, wanted, Bool.true_and, Bool.and_eq_true]
    exact ⟨readable.1, rfl⟩
  have found : decodedAt (fetchedBy fetcher (onlyFetched fetcher object.key) eitherArrow config) 0 object =
      some (table, lines) := by
    have got : getObject (fetchedBy fetcher (onlyFetched fetcher object.key) eitherArrow config) 0 object.key =
        .ok ([], none) := by
      simp [getObject, fetchedBy, decoding, onlyFetched]
    rw [decodedAt, got]
    exact decoded
  rcases processObject_eq (fetchedBy fetcher (onlyFetched fetcher object.key) eitherArrow config) {} object with
    ⟨_, same⟩ | ⟨left, _⟩
  · have forwarded : (forwardBatch (fetchedBy fetcher (onlyFetched fetcher object.key) eitherArrow config).forward lines
        ({} : IngestActor).forwarder).1 = .ok () := steady_forwards lines {}
    rw [same, attempt, fetch_some found, forwarded]
    rfl
  · rw [taken] at left
    cases left

/-- An object that the fetcher reads from elsewhere can be recorded without being stored. -/
theorem not_keepsIdentity {fetcher : ObjectFetcher} (config : Nautilus.NautilusIngestConfig) {object : ProcessObject}
    (wanted : shouldIngestKey object.key = true) (readable : Readable fetcher object)
    (elsewhere : ¬ AtHome fetcher object) : ¬ KeepsIdentity fetcher config object := by
  intro keeps
  have recorded := onlyFetched_records config wanted readable
  obtain ⟨⟨k, _, _, _, bytes, etag, _, stored, _⟩, _⟩ := keeps (onlyFetched fetcher object.key) eitherArrow {} (by
    intro same
    rw [same] at recorded
    cases recorded)
  simp only [fetchedBy, decoding, onlyFetched] at stored
  split at stored
  · rename_i home
    exact elsewhere ⟨home.1, home.2.symm⟩
  · cases stored

theorem keepsIdentity_iff {fetcher : ObjectFetcher} (config : Nautilus.NautilusIngestConfig) {object : ProcessObject}
    (wanted : shouldIngestKey object.key = true) :
    KeepsIdentity fetcher config object ↔ (Readable fetcher object → AtHome fetcher object) := by
  constructor
  · intro keeps readable
    by_contra elsewhere
    exact not_keepsIdentity config wanted readable elsewhere keeps
  · intro home w arrow a changed
    have there := home (readable_of_recorded changed)
    exact ⟨ownRows_of_atHome there changed, @noOtherRows_of_atHome (fetchedBy fetcher w arrow config) _ there a⟩

/-- The objects of a notification keep their identity exactly if those that can be read are at home. -/
theorem announcedKept_iff (fromStr : Str → Option S3NotificationEnvelope) (http : HttpState) (fetcher : ObjectFetcher)
    (config : Nautilus.NautilusIngestConfig) (body : Str) :
    AnnouncedKept fromStr http fetcher config body ↔ AnnouncedAtHome fromStr http fetcher body := by
  unfold AnnouncedKept AnnouncedAtHome
  refine forall_congr' fun room => forall₂_congr fun object member => ?_
  exact keepsIdentity_iff config (ingestEvents_sent member).1

/-! A notification for another bucket than the fetcher's. -/

def otherBucketBody : Str :=
  "\x7b\"Records\":[\x7b\"eventName\":\"s3:ObjectCreated:Put\",\"s3\":\x7b\"bucket\":\x7b\"name\":\"archive\"\x7d,".toList ++
    "\"object\":\x7b\"key\":\"live/data/trades/A.B/c.feather\"\x7d\x7d\x7d]\x7d".toList

def otherBucketEnvelope : S3NotificationEnvelope :=
  { records := [{ eventName := some "s3:ObjectCreated:Put".toList
                  s3 := some { bucketName := "archive".toList, object := { key := CheckpointStore.overwrittenKey } } }] }

def onlyOtherBucket (text : Str) : Option S3NotificationEnvelope :=
  if text = otherBucketBody then some otherBucketEnvelope else none

/-- The object is read from the fetcher's bucket and recorded as an object of the other one. -/
theorem other_bucket_recorded :
    ¬ AnnouncedKept onlyOtherBucket ⟨"market-data".toList, "live/".toList⟩ CheckpointStore.listingNew .default
      otherBucketBody := by
  intro kept
  have sent : (⟨"archive".toList, CheckpointStore.overwrittenKey, none⟩ : ProcessObject) ∈
      (ingestEvents onlyOtherBucket ⟨"market-data".toList, "live/".toList⟩ otherBucketBody fun _ => true).2 := by
    decide +kernel
  refine not_keepsIdentity .default (by decide +kernel) ?_ (by decide +kernel) (kept _ _ sent)
  exact ⟨by decide +kernel, by decide +kernel⟩

end IngestActor
end QuestRouter.Ingest
