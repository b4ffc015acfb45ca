import QuestRouter.Ingest.Events
import QuestRouter.Text.Percent

/-!
# Object keys

The records of a notification carry keys in form encoding, of which only the spaces are decoded. The other shape
of a notification has the bucket in front of the key, where it stays if a default bucket is configured.
-/

namespace QuestRouter.Ingest
open Text

/-- What a record tells of an object. -/
structure Carried where
  eventName : Str
  bucket : Str
  key : Str
  etag : Option Str

def Carried.record (carried : Carried) (e : FormEncoding) : S3Record where
  eventName := some carried.eventName
  s3 := some { bucketName := carried.bucket, object := { key := e.encode carried.key, etag := carried.etag } }

/-- The bucket that a record is of. -/
def Carried.bucketOr (carried : Carried) (defaultBucket : Str) : Str :=
  if carried.bucket.isEmpty then defaultBucket else carried.bucket

def isCreated (eventName : Str) : Bool := "s3:ObjectCreated:".toList.isPrefixOf eventName

/-- A key that ends as the files of the ingest do. -/
def EndsInFeather (key : Str) : Prop := ".feather".toList <:+ key ∨ ".arrow".toList <:+ key

/-! ### Normalised keys -/

theorem getLast?_of_suffix {s t : Str} (suffix : s <:+ t) (some : s ≠ []) : t.getLast? = s.getLast? := by
  obtain ⟨u, rfl⟩ := suffix
  rw [List.getLast?_append, List.getLast?_eq_some_getLast some]
  rfl

theorem shouldIngestKey_of_ends {key : Str} (ends : EndsInFeather key) : shouldIngestKey key = true := by
  have lowered : ∀ {s : Str}, s <:+ key → toAsciiLowercase s <:+ toAsciiLowercase key := fun suffix => suffix.map _
  have kind : ".feather".toList <:+ toAsciiLowercase key ∨ ".arrow".toList <:+ toAsciiLowercase key :=
    ends.imp lowered lowered
  have last : key.getLast? = some 'r' ∨ key.getLast? = some 'w' :=
    ends.imp (fun suffix => getLast?_of_suffix suffix (by decide)) fun suffix => getLast?_of_suffix suffix (by decide)
  have lastLower : (toAsciiLowercase key).getLast? = some 'r' ∨ (toAsciiLowercase key).getLast? = some 'w' :=
    kind.imp (fun suffix => getLast?_of_suffix suffix (by decide)) fun suffix => getLast?_of_suffix suffix (by decide)
  have notFolder : ¬ ['/'] <:+ key := by
    intro folder
    rw [getLast?_of_suffix folder (by decide)] at last
    exact absurd last (by decide)
  have notPart : ¬ (".part".toList <:+ toAsciiLowercase key ∨ ".tmp".toList <:+ toAsciiLowercase key) := by
    rintro (part | tmp)
    · rw [getLast?_of_suffix part (by decide)] at lastLower
      exact absurd lastLower (by decide)
    · rw [getLast?_of_suffix tmp (by decide)] at lastLower
      exact absurd lastLower (by decide)
  unfold shouldIngestKey
  simp only [← List.isSuffixOf_iff_suffix, ← Bool.or_eq_true, Bool.not_eq_true] at kind notFolder notPart
  dsimp only
  rw [notFolder, kind, notPart]
  rfl

theorem normalizeKey_eq {eventName bucket keyOrFull : Str} {etag : Option Str} {found : Str × Str}
    (created : isCreated eventName = true) (split : bucketAndKey bucket keyOrFull = some found) :
    normalizeKey eventName bucket keyOrFull etag =
      if shouldIngestKey found.2 then some ⟨found.1, found.2, etag, eventName⟩ else none := by
  unfold isCreated at created
  rw [normalizeKey, created, split]
  by_cases wanted : shouldIngestKey found.2 = true
  · simp [wanted]
  · simp [wanted]

theorem normalizeKey_created {eventName bucket keyOrFull : Str} {etag : Option Str} {ref : ObjectRef}
    (normalized : normalizeKey eventName bucket keyOrFull etag = some ref) :
    isCreated eventName = true ∧ bucketAndKey bucket keyOrFull = some (ref.bucket, ref.key) := by
  unfold normalizeKey at normalized
  split at normalized
  · cases normalized
  rename_i created
  obtain ⟨⟨found, key⟩, split, kept⟩ := Option.bind_eq_some_iff.mp normalized
  dsimp only at kept
  split at kept
  · cases kept
  · obtain rfl := Option.some.inj kept
    exact ⟨by simpa [isCreated] using created, split⟩

theorem normalizeKey_other {eventName : Str} (other : isCreated eventName = false) (bucket keyOrFull : Str)
    (etag : Option Str) : normalizeKey eventName bucket keyOrFull etag = none := by
  cases normalized : normalizeKey eventName bucket keyOrFull etag with
  | none => rfl
  | some ref =>
    rw [(normalizeKey_created normalized).1] at other
    cases other

theorem bucketAndKey_named {bucket : Str} (named : bucket ≠ []) (keyOrFull : Str) :
    bucketAndKey bucket keyOrFull = some (bucket, keyOrFull) := by
  rw [bucketAndKey, if_neg (fun both => named both.2), if_neg named]

/-- Without a bucket, what is in front of the first slash is one. -/
theorem bucketAndKey_unnamed {full : Str} {found : Str × Str} (split : bucketAndKey [] full = some found) :
    full = found.1 ++ '/' :: found.2 ∧ '/' ∉ found.1 := by
  unfold bucketAndKey splitBucketKey at split
  by_cases slash : '/' ∈ full
  · rw [if_pos ⟨slash, rfl⟩, if_pos slash] at split
    obtain rfl := Option.some.inj split
    have rest : full.dropWhile (· != '/') ≠ [] := by
      intro none
      rw [List.dropWhile_eq_nil_iff] at none
      simpa using none '/' slash
    obtain ⟨c, tail, cut⟩ := List.exists_cons_of_ne_nil rest
    obtain rfl : c = '/' := by
      have head := List.head_dropWhile_not (· != '/') rest
      simp only [cut, List.head_cons] at head
      simpa using head
    refine ⟨?_, fun inside => by simpa using List.mem_takeWhile_imp inside⟩
    dsimp only
    rw [cut, List.tail_cons, ← cut, List.takeWhile_append_dropWhile]
  · rw [if_neg (fun both => slash both.1), if_pos rfl] at split
    cases split

/-! ### Keys of records -/

theorem decodeObjectKey_encode (e : FormEncoding) (key : Str) :
    decodeObjectKey (e.encode key) = key.flatMap e.spacedChar := by
  have spaces : replace (e.encode key) "%20".toList " ".toList = e.encode key := e.replace_encode key
  rw [decodeObjectKey, spaces]
  exact e.replace_plus key

theorem recordRef_carried (e : FormEncoding) (defaultBucket : Str) (carried : Carried) :
    recordRef defaultBucket (carried.record e) =
      normalizeKey carried.eventName (carried.bucketOr defaultBucket) (carried.key.flatMap e.spacedChar) carried.etag := by
  rw [← decodeObjectKey_encode]
  rfl

/-- A record is read back as its key if it is of a created object in a bucket and nothing but spaces was encoded. -/
theorem recordRef_key_iff {e : FormEncoding} {defaultBucket : Str} {carried : Carried}
    (ends : EndsInFeather carried.key) :
    (∃ ref, recordRef defaultBucket (carried.record e) = some ref ∧ ref.key = carried.key) ↔
      isCreated carried.eventName = true ∧ carried.bucketOr defaultBucket ≠ [] ∧
        ∀ c ∈ carried.key, c = ' ' ∨ e.kept c = true := by
  rw [recordRef_carried, ← e.spaced_eq_self_iff]
  constructor
  · rintro ⟨ref, normalized, same⟩
    obtain ⟨created, split⟩ := normalizeKey_created normalized
    have named : carried.bucketOr defaultBucket ≠ [] := by
      intro unnamed
      rw [unnamed] at split
      obtain ⟨whole, _⟩ := bucketAndKey_unnamed split
      have fewer := e.count_spaced_le (d := '/') (by decide) carried.key
      dsimp only at whole
      rw [whole, List.count_append, List.count_cons_self, same] at fewer
      omega
    rw [bucketAndKey_named named] at split
    have key := congrArg Prod.snd (Option.some.inj split)
    exact ⟨created, named, key.trans same⟩
  · rintro ⟨created, named, same⟩
    rw [same, normalizeKey_eq created (bucketAndKey_named named carried.key),
      if_pos (shouldIngestKey_of_ends ends)]
    exact ⟨_, rfl, rfl⟩

theorem map_filterMap_eq_iff {α β γ : Type} {f : α → Option β} {g : β → γ} {h : α → γ} {xs : List α} :
    (xs.filterMap f).map g = xs.map h ↔ ∀ x ∈ xs, ∃ y, f x = some y ∧ g y = h x := by
  induction xs with
  | nil => simp
  | cons x xs ih =>
    rw [List.forall_mem_cons, ← ih, List.filterMap_cons]
    cases found : f x with
    | none =>
      constructor
      · intro same
        have length := congrArg List.length same
        have fewer := List.length_filterMap_le f xs
        simp only [List.length_map, List.length_cons] at length
        omega
      · rintro ⟨⟨y, impossible, _⟩, _⟩
        cases impossible
    | some y =>
      rw [List.map_cons, List.map_cons, List.cons.injEq]
      apply and_congr_left'
      constructor
      · exact fun same => ⟨y, rfl, same⟩
      · rintro ⟨_, this, same⟩
        cases this
        exact same

/-- The keys of a notification are read back exactly if each record is of a created object in a bucket, and its
key has no character but spaces that had to be encoded. -/
theorem parseNotification_keys_iff {fromStr : Str → Option S3NotificationEnvelope} {body defaultBucket : Str}
    {envelope : S3NotificationEnvelope} {e : FormEncoding} {carried : List Carried}
    (parsed : fromStr body = some envelope) (records : envelope.records = carried.map (·.record e))
    (nonempty : carried ≠ []) (ends : ∀ object ∈ carried, EndsInFeather object.key) :
    (∃ refs, parseNotification fromStr body defaultBucket = some refs ∧
        refs.map ObjectRef.key = carried.map Carried.key) ↔
      ∀ object ∈ carried, isCreated object.eventName = true ∧ object.bucketOr defaultBucket ≠ [] ∧
        ∀ c ∈ object.key, c = ' ' ∨ e.kept c = true := by
  have present : envelope.records.isEmpty = false := by
    rw [records, List.isEmpty_map, List.isEmpty_eq_false_iff]
    exact nonempty
  have refs : envelopeRefs defaultBucket envelope =
      carried.filterMap fun object => recordRef defaultBucket (object.record e) := by
    rw [envelopeRefs, present, if_neg Bool.false_ne_true, records, List.filterMap_map]
    rfl
  rw [parseNotification, parsed, Option.map_some, refs]
  simp only [Option.some.injEq, exists_eq_left', map_filterMap_eq_iff]
  exact forall₂_congr fun object member => recordRef_key_iff (ends object member)

def unreservedMarks : Str := "-_.~/".toList

/-- Letters, digits and a few marks are written as they are. -/
def unreserved : FormEncoding where
  kept c := c.isAlphanum || unreservedMarks.contains c
  plain c kept := by
    rcases Bool.or_eq_true_iff.mp kept with word | mark
    · refine ⟨?_, ?_, ?_, ?_⟩
      · unfold Char.isAlphanum Char.isAlpha Char.isUpper Char.isLower Char.isDigit at word
        simp [UInt32.le_iff_toNat_le] at word
        omega
      all_goals
        rintro rfl
        exact absurd word (by decide)
    · have marks : unreservedMarks.all (fun c => c.toNat < 128 ∧ c ≠ '%' ∧ c ≠ '+' ∧ c ≠ ' ') = true := by decide
      exact of_decide_eq_true (List.all_eq_true.mp marks c (List.contains_iff_mem.mp mark))

/-- A file was put there. -/
def put (key : String) : Carried := ⟨"s3:ObjectCreated:Put".toList, "market-data".toList, key.toList, none⟩

def notification (object : Carried) : S3NotificationEnvelope := { records := [object.record unreserved] }

/-- The notification as text. -/
def recordText (object : Carried) : Str :=
  "\x7b\"Records\":[\x7b\"eventName\":\"".toList ++ object.eventName ++
    "\",\"s3\":\x7b\"bucket\":\x7b\"name\":\"".toList ++ object.bucket ++
    "\"\x7d,\"object\":\x7b\"key\":\"".toList ++ unreserved.encode object.key ++ "\"\x7d\x7d\x7d]\x7d".toList

/-- A parser that knows the notification of one object. -/
def onlyRecord (object : Carried) (text : Str) : Option S3NotificationEnvelope :=
  if text = recordText object then some (notification object) else none

def spacedKey : Carried := put "live/data/trades/BTC USDT.feather"

theorem parseNotification_keys_spaced : ∃ refs,
    parseNotification (onlyRecord spacedKey) (recordText spacedKey) [] = some refs ∧
      refs.map ObjectRef.key = [spacedKey].map Carried.key := by
  have ends : ∀ object ∈ [spacedKey], EndsInFeather object.key := by
    intro object member
    obtain rfl := List.mem_singleton.mp member
    exact .inl (List.isSuffixOf_iff_suffix.mp (by decide))
  have parsed : onlyRecord spacedKey (recordText spacedKey) = some (notification spacedKey) := if_pos rfl
  refine (parseNotification_keys_iff parsed rfl (List.cons_ne_nil _ _) ends).mpr fun object member => ?_
  obtain rfl := List.mem_singleton.mp member
  have spaces : spacedKey.key.all (fun c => c = ' ' ∨ unreserved.kept c = true) = true := by decide
  exact ⟨by decide, by decide, fun c inside => of_decide_eq_true (List.all_eq_true.mp spaces c inside)⟩

def datedKey : Carried := put "live/data/trades/BTC@2024.feather"

/-- The sign in it is not decoded. -/
theorem dated_key_not_decoded : EndsInFeather datedKey.key ∧
    ¬ ∃ refs, parseNotification (onlyRecord datedKey) (recordText datedKey) [] = some refs ∧
      refs.map ObjectRef.key = [datedKey].map Carried.key := by
  refine ⟨.inl (List.isSuffixOf_iff_suffix.mp (by decide)), ?_⟩
  rintro ⟨refs, parsed, same⟩
  have read : parseNotification (onlyRecord datedKey) (recordText datedKey) [] =
      some [⟨"market-data".toList, "live/data/trades/BTC%402024.feather".toList, none, "s3:ObjectCreated:Put".toList⟩] := by
    decide +kernel
  rw [read] at parsed
  obtain rfl := Option.some.inj parsed
  exact absurd same (by decide)

/-! ### Two shapes -/

/-- The buckets and keys that a notification names. -/
def named (fromStr : Str → Option S3NotificationEnvelope) (body defaultBucket : Str) : Option (List (Str × Str)) :=
  (parseNotification fromStr body defaultBucket).map (·.map fun ref => (ref.bucket, ref.key))

theorem bucketAndKey_topLevel {bucket : Str} (noSlash : '/' ∉ bucket) (key : Str) :
    bucketAndKey [] (bucket ++ '/' :: key) = some (bucket, key) := by
  have slash : '/' ∈ bucket ++ '/' :: key := List.mem_append_right _ List.mem_cons_self
  have before : ∀ c ∈ bucket, (c != '/') = true := by
    intro c member
    rw [bne_iff_ne]
    rintro rfl
    exact noSlash member
  rw [bucketAndKey, if_pos ⟨slash, rfl⟩, splitBucketKey, if_pos slash,
    List.takeWhile_append_of_pos before, List.dropWhile_append_of_pos before]
  simp

/-- The bucket and the key of what may have been named. -/
def bucketKeys (ref : Option ObjectRef) : List (Str × Str) := ref.toList.map fun ref => (ref.bucket, ref.key)

theorem named_topLevel {fromStr : Str → Option S3NotificationEnvelope} {body eventName key : Str}
    (parsed : fromStr body = some { eventName := some eventName, key := some key }) (defaultBucket : Str) :
    named fromStr body defaultBucket = some (bucketKeys (normalizeKey eventName defaultBucket key none)) := by
  rw [named, parseNotification, parsed]
  rfl

theorem named_record {fromStr : Str → Option S3NotificationEnvelope} {body : Str} {eventName key : Option Str}
    {record : S3Record} (parsed : fromStr body = some { records := [record], eventName, key }) (defaultBucket : Str) :
    named fromStr body defaultBucket = some (bucketKeys (recordRef defaultBucket record)) := by
  rw [named, parseNotification, parsed]
  simp only [Option.map_some, envelopeRefs, List.isEmpty_cons, Bool.false_eq_true, if_false, List.filterMap_cons,
    List.filterMap_nil, Option.some.injEq]
  cases recordRef defaultBucket record <;> rfl

theorem bucketKeys_other {ref : Option ObjectRef} {bucket key : Str}
    (other : ∀ found ∈ ref, found.key ≠ key) : bucketKeys ref ≠ [(bucket, key)] := by
  cases ref with
  | none => nofun
  | some found =>
    intro same
    exact other found rfl (Prod.mk.inj (List.cons.inj same).1).2

theorem ne_behind_slash (bucket key : Str) : bucket ++ '/' :: key ≠ key := by
  intro same
  have length := congrArg List.length same
  rw [List.length_append, List.length_cons] at length
  omega

section Created
variable {eventName bucket key : Str}

/-- The event names its object where no bucket is configured. -/
theorem bucketKeys_topLevel (created : isCreated eventName = true) (noSlash : '/' ∉ bucket)
    (ingestible : shouldIngestKey key = true) :
    bucketKeys (normalizeKey eventName [] (bucket ++ '/' :: key) none) = [(bucket, key)] := by
  rw [normalizeKey_eq created (bucketAndKey_topLevel noSlash key), if_pos ingestible]
  rfl

/-- Otherwise the bucket stays in front of the key. -/
theorem bucketKeys_configured (configured : bucket ≠ []) :
    bucketKeys (normalizeKey eventName bucket (bucket ++ '/' :: key) none) ≠ [(bucket, key)] := by
  apply bucketKeys_other
  intro found normalized same
  have split := (normalizeKey_created normalized).2
  rw [bucketAndKey_named configured] at split
  have whole : bucket ++ '/' :: key = found.key := congrArg Prod.snd (Option.some.inj split)
  exact ne_behind_slash bucket key (whole.trans same)

/-- The record names its object where a bucket is named. -/
theorem bucketKeys_record (created : isCreated eventName = true) (named : bucket ≠ [])
    (ingestible : shouldIngestKey key = true) (etag : Option Str) :
    bucketKeys (normalizeKey eventName bucket key etag) = [(bucket, key)] := by
  rw [normalizeKey_eq created (bucketAndKey_named named key), if_pos ingestible]
  rfl

/-- Otherwise something is cut off its key. -/
theorem bucketKeys_unnamed (etag : Option Str) :
    bucketKeys (normalizeKey eventName [] key etag) ≠ [([], key)] := by
  apply bucketKeys_other
  intro found normalized same
  have whole : key = found.bucket ++ '/' :: found.key :=
    (bucketAndKey_unnamed (normalizeKey_created normalized).2).1
  rw [same] at whole
  exact ne_behind_slash found.bucket key whole.symm

end Created

theorem Carried.bucketOr_configured {object : Carried} {defaultBucket : Str}
    (configured : defaultBucket = object.bucket ∨ defaultBucket = []) :
    object.bucketOr defaultBucket = object.bucket := by
  unfold Carried.bucketOr
  split
  · rename_i unnamed
    rw [List.isEmpty_iff] at unnamed
    rcases configured with same | none
    · exact same
    · rw [none, unnamed]
  · rfl

/-- Both shapes name the same object exactly if there is none to be named, or no bucket is configured and the
object is in one. -/
theorem shapes_agree_iff {fromStr : Str → Option S3NotificationEnvelope} {top records : Str} {e : FormEncoding}
    {object : Carried} {eventName key : Option Str} {defaultBucket : Str}
    (parsedTop : fromStr top =
      some { eventName := some object.eventName, key := some (object.bucket ++ '/' :: object.key) })
    (parsedRecords : fromStr records = some { records := [object.record e], eventName, key })
    (noSlash : '/' ∉ object.bucket) (ingestible : shouldIngestKey object.key = true)
    (kept : ∀ c ∈ object.key, e.kept c = true)
    (configured : defaultBucket = object.bucket ∨ defaultBucket = []) :
    named fromStr top defaultBucket = named fromStr records defaultBucket ↔
      isCreated object.eventName = false ∨ defaultBucket = [] ∧ object.bucket ≠ [] := by
  have decoded : object.key.flatMap e.spacedChar = object.key :=
    e.spaced_eq_self_iff.mpr fun c member => .inr (kept c member)
  rw [named_topLevel parsedTop, named_record parsedRecords, recordRef_carried, decoded,
    Carried.bucketOr_configured configured, Option.some.injEq]
  cases created : isCreated object.eventName with
  | false =>
    rw [normalizeKey_other created, normalizeKey_other created]
    simp
  | true =>
    simp only [Bool.true_eq_false, false_or]
    by_cases unnamed : object.bucket = []
    · have noDefault : defaultBucket = [] := configured.elim (fun same => same.trans unnamed) id
      rw [noDefault, bucketKeys_topLevel created noSlash ingestible, unnamed]
      exact ⟨fun same => (bucketKeys_unnamed object.etag same.symm).elim, fun both => (both.2 rfl).elim⟩
    · rw [bucketKeys_record created unnamed ingestible]
      constructor
      · intro same
        refine ⟨?_, unnamed⟩
        rcases configured with default | none
        · rw [default] at same
          exact (bucketKeys_configured unnamed same).elim
        · exact none
      · rintro ⟨none, _⟩
        rw [none, bucketKeys_topLevel created noSlash ingestible]

def plainKey : Carried := put "live/data/trades/BTCUSDT.BITUNIX/x.feather"

/-- The event of a put, with the bucket in front of the key. -/
def topLevel : S3NotificationEnvelope where
  eventName := some plainKey.eventName
  key := some (plainKey.bucket ++ '/' :: plainKey.key)

/-- That event as text. -/
def topLevelText : Str :=
  "\x7b\"EventName\":\"".toList ++ plainKey.eventName ++ "\",\"Key\":\"".toList ++
    (plainKey.bucket ++ '/' :: plainKey.key) ++ "\"\x7d".toList

/-- A parser that knows the two notifications of the put. -/
def eitherShape (text : Str) : Option S3NotificationEnvelope :=
  if text = topLevelText then some topLevel else onlyRecord plainKey text

theorem eitherShape_record : eitherShape (recordText plainKey) = some (notification plainKey) := by
  have other : recordText plainKey ≠ topLevelText := by decide +kernel
  rw [eitherShape, if_neg other]
  exact if_pos rfl

theorem plainKey_kept : ∀ c ∈ plainKey.key, unreserved.kept c = true := by
  have all : plainKey.key.all unreserved.kept = true := by decide
  exact List.all_eq_true.mp all

theorem shapes_agree_unconfigured : named eitherShape topLevelText [] = named eitherShape (recordText plainKey) [] :=
  (shapes_agree_iff (if_pos rfl) eitherShape_record (by decide) (by decide) plainKey_kept (.inr rfl)).mpr
    (.inr ⟨rfl, by decide⟩)

/-- With the bucket as default, the key begins with it. -/
theorem configured_bucket_kept :
    named eitherShape topLevelText plainKey.bucket ≠ named eitherShape (recordText plainKey) plainKey.bucket := by
  decide +kernel

end QuestRouter.Ingest
