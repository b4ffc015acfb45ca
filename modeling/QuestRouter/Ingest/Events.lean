import QuestRouter.Ingest.Actor
import QuestRouter.Text.Replace

/-!
# Notifications

A notification names objects by bucket and key, and the webhook sends those under the configured prefix to the
actor. The JSON parser is a parameter; what it yields is the envelope as the source declares it.
-/

namespace QuestRouter.Ingest
open Text

structure ObjectRef where
  bucket : Str
  key : Str
  etag : Option Str
  eventName : Str
  deriving DecidableEq, Repr

structure S3Object where
  key : Str := []
  etag : Option Str := none
  deriving DecidableEq, Repr

structure S3Entity where
  bucketName : Str := []
  object : S3Object := {}
  deriving DecidableEq, Repr

structure S3Record where
  eventName : Option Str := none
  s3 : Option S3Entity := none
  deriving DecidableEq, Repr

structure S3NotificationEnvelope where
  records : List S3Record := []
  eventName : Option Str := none
  key : Option Str := none
  deriving DecidableEq, Repr

def decodeObjectKey (key : Str) : Str := replace (replace key "%20".toList " ".toList) "+".toList " ".toList

/-- `split_once('/')`. -/
def splitBucketKey (full : Str) : Option (Str × Str) :=
  if '/' ∈ full then some (full.takeWhile (· != '/'), (full.dropWhile (· != '/')).tail) else none

def bucketAndKey (bucket keyOrFull : Str) : Option (Str × Str) :=
  if '/' ∈ keyOrFull ∧ bucket = [] then splitBucketKey keyOrFull
  else if bucket = [] then none
  else some (bucket, keyOrFull)

def normalizeKey (eventName bucket keyOrFull : Str) (etag : Option Str) : Option ObjectRef :=
  if !"s3:ObjectCreated:".toList.isPrefixOf eventName then none
  else (bucketAndKey bucket keyOrFull).bind fun (bucket, key) =>
    if !shouldIngestKey key then none else some ⟨bucket, key, etag, eventName⟩

def recordRef (defaultBucket : Str) (record : S3Record) : Option ObjectRef := do
  let s3 ← record.s3
  let bucket := if s3.bucketName.isEmpty then defaultBucket else s3.bucketName
  normalizeKey (record.eventName.getD []) bucket (decodeObjectKey s3.object.key) s3.object.etag

/-- The objects of an envelope: those of its records or, if it has none, the one named at its top. -/
def envelopeRefs (defaultBucket : Str) (envelope : S3NotificationEnvelope) : List ObjectRef :=
  if envelope.records.isEmpty then
    match envelope.eventName, envelope.key with
    | some eventName, some key => (normalizeKey eventName defaultBucket key none).toList
    | _, _ => []
  else envelope.records.filterMap (recordRef defaultBucket)

def parseNotification (fromStr : Str → Option S3NotificationEnvelope) (body defaultBucket : Str) :
    Option (List ObjectRef) := (fromStr body).map (envelopeRefs defaultBucket)

inductive StatusCode where
  | ok
  | badRequest
  | serviceUnavailable
  deriving DecidableEq, Repr

structure HttpState where
  defaultBucket : Str
  keyPrefix : Str
  deriving DecidableEq, Repr

/-- The loop of the webhook; the n-th `try_send` finds room or does not. -/
def sendRefs (keyPrefix : Str) (room : Nat → Bool) : List ObjectRef → Nat → StatusCode × List ProcessObject
  | [], _ => (.ok, [])
  | ref :: refs, sent =>
    if !matchesPrefix ref.key keyPrefix then sendRefs keyPrefix room refs sent
    else if room sent then
      let (status, rest) := sendRefs keyPrefix room refs (sent + 1)
      (status, ⟨ref.bucket, ref.key, ref.etag⟩ :: rest)
    else (.serviceUnavailable, [])

/-- What the webhook answers, and what it sends to the actor. -/
def ingestEvents (fromStr : Str → Option S3NotificationEnvelope) (http : HttpState) (body : Str) (room : Nat → Bool) :
    StatusCode × List ProcessObject :=
  match parseNotification fromStr body http.defaultBucket with
  | none => (.badRequest, [])
  | some refs => sendRefs http.keyPrefix room refs 0

/-! ### What is sent -/

theorem normalizeKey_wanted {eventName bucket keyOrFull : Str} {etag : Option Str} {ref : ObjectRef}
    (normalized : normalizeKey eventName bucket keyOrFull etag = some ref) : shouldIngestKey ref.key = true := by
  unfold normalizeKey at normalized
  split at normalized
  · cases normalized
  obtain ⟨⟨found, key⟩, _, kept⟩ := Option.bind_eq_some_iff.mp normalized
  dsimp only at kept
  split at kept
  · cases kept
  · rename_i wanted
    obtain rfl := Option.some.inj kept
    simpa using wanted

theorem envelopeRefs_wanted {defaultBucket : Str} {envelope : S3NotificationEnvelope} {ref : ObjectRef}
    (member : ref ∈ envelopeRefs defaultBucket envelope) : shouldIngestKey ref.key = true := by
  unfold envelopeRefs at member
  split at member
  · split at member
    · exact normalizeKey_wanted (Option.mem_toList.mp member)
    · cases member
  · obtain ⟨record, _, found⟩ := List.mem_filterMap.mp member
    obtain ⟨s3, _, normalized⟩ := Option.bind_eq_some_iff.mp found
    exact normalizeKey_wanted normalized

theorem sendRefs_sent {keyPrefix : Str} {room : Nat → Bool} {refs : List ObjectRef} {sent : Nat} {object : ProcessObject}
    (member : object ∈ (sendRefs keyPrefix room refs sent).2) :
    ∃ ref ∈ refs, object = ⟨ref.bucket, ref.key, ref.etag⟩ ∧ matchesPrefix ref.key keyPrefix = true := by
  induction refs generalizing sent with
  | nil => cases member
  | cons ref refs ih =>
    rw [sendRefs] at member
    split at member
    · obtain ⟨other, inside, same⟩ := ih member
      exact ⟨other, List.mem_cons_of_mem _ inside, same⟩
    rename_i matching
    split at member
    · rcases List.mem_cons.mp member with first | later
      · exact ⟨ref, List.mem_cons_self, first, by simpa using matching⟩
      · obtain ⟨other, inside, same⟩ := ih later
        exact ⟨other, List.mem_cons_of_mem _ inside, same⟩
    · cases member

/-- The webhook sends only keys that the actor may ingest. -/
theorem ingestEvents_sent {fromStr : Str → Option S3NotificationEnvelope} {http : HttpState} {body : Str}
    {room : Nat → Bool} {object : ProcessObject} (member : object ∈ (ingestEvents fromStr http body room).2) :
    shouldIngestKey object.key = true ∧ matchesPrefix object.key http.keyPrefix = true := by
  unfold ingestEvents at member
  split at member
  · cases member
  · rename_i refs parsed
    obtain ⟨envelope, _, rfl⟩ := Option.map_eq_some_iff.mp parsed
    obtain ⟨ref, inside, rfl, matching⟩ := sendRefs_sent member
    exact ⟨envelopeRefs_wanted inside, matching⟩

end QuestRouter.Ingest
