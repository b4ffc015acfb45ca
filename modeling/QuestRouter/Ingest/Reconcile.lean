import QuestRouter.Ingest.CheckpointFile
import QuestRouter.Ingest.Actor

/-!
# Reconcile scan

The scan lists the objects of the bucket and sends those to the actor that the checkpoint has no entry for. The
actor compares etags instead, so the two agree exactly if every entry of a listed object has its etag.
-/

namespace QuestRouter.Ingest
open Text Data

structure ObjectMeta where
  location : Str
  eTag : Option Str
  deriving DecidableEq, Repr

/-- The fetcher: the path of a key, and what the object store lists under a path, each item or an error. -/
structure ObjectFetcher where
  bucket : Str
  keyPrefix : Str
  objectPath : Str → Str
  listWithOffset : Str → List (Option ObjectMeta)

def trimEndMatches (c : Char) (s : Str) : Str := (s.reverse.dropWhile (· == c)).reverse

namespace ObjectFetcher

def wanted (fetcher : ObjectFetcher) (object : ObjectMeta) : Bool :=
  shouldIngestKey object.location && matchesPrefix object.location fetcher.keyPrefix

/-- The stream is read up to the first error. -/
def collectWanted (fetcher : ObjectFetcher) : List (Option ObjectMeta) → Option (List ObjectMeta)
  | [] => some []
  | none :: _ => none
  | some object :: items => (fetcher.collectWanted items).map fun objects =>
    if fetcher.wanted object then object :: objects else objects

def listFeatherObjects (fetcher : ObjectFetcher) : Option (List ObjectMeta) :=
  fetcher.collectWanted (fetcher.listWithOffset (fetcher.objectPath (trimEndMatches '/' fetcher.keyPrefix)))

/-- The message for a listed object. -/
def announce (fetcher : ObjectFetcher) (object : ObjectMeta) : ProcessObject :=
  ⟨fetcher.bucket, object.location, object.eTag⟩

end ObjectFetcher

/-- What a scan has sent, and the lag it reports. -/
structure Scan where
  enqueued : List ProcessObject := []
  lag : Nat := 0

namespace CheckpointStore

/-- The loop over the objects, of which `sent` were sent so far. The n-th `try_send` finds room or does not. -/
def enqueueMissing (store : CheckpointStore) (fetcher : ObjectFetcher) (room : Nat → Bool) : List ObjectMeta → Nat → Scan
  | [], _ => {}
  | object :: objects, sent =>
    if store.contains fetcher.bucket object.location then enqueueMissing store fetcher room objects sent
    else if room sent then
      let rest := enqueueMissing store fetcher room objects (sent + 1)
      ⟨fetcher.announce object :: rest.enqueued, rest.lag + 1⟩
    else ⟨[], 1⟩

/-- `reconcile_once`, with the checkpoint it loads; a scan that cannot load or list sends nothing. -/
def reconcileOnce (loaded : Except CheckpointError CheckpointStore) (fetcher : ObjectFetcher) (room : Nat → Bool) : Scan :=
  match loaded, fetcher.listFeatherObjects with
  | .ok store, some objects => store.enqueueMissing fetcher room objects 0
  | _, _ => {}

/-- The scan sends the listed objects that the actor would process. -/
def AgreesWithActor (store : CheckpointStore) (fetcher : ObjectFetcher) : Prop :=
  ∀ objects room, fetcher.listFeatherObjects = some objects → (∀ n < objects.length, room n = true) →
    (reconcileOnce (.ok store) fetcher room).enqueued =
      (objects.filter fun object => store.shouldProcess fetcher.bucket object.location object.eTag).map fetcher.announce

/-- Where a listed object has an entry, the entry has an etag, and it is the one the store lists. -/
def EntriesCurrent (store : CheckpointStore) (fetcher : ObjectFetcher) : Prop :=
  ∀ objects, fetcher.listFeatherObjects = some objects → ∀ object ∈ objects, ∀ entry,
    store.entries.get (encode fetcher.bucket object.location) = some entry →
      entry.etag.isSome = true ∧ entry.etag = object.eTag

variable {store : CheckpointStore} {fetcher : ObjectFetcher}

theorem contains_eq_false {bucket key : Str} :
    store.contains bucket key = false ↔ store.entries.get (encode bucket key) = none := by
  rw [contains, Option.isSome_eq_false_iff, Option.isNone_iff_eq_none]

/-- An object without an entry is processed whatever its etag. -/
theorem shouldProcess_of_missing {bucket key : Str} (missing : store.contains bucket key = false) (etag : Option Str) :
    store.shouldProcess bucket key etag = true := by
  rw [shouldProcess, contains_eq_false.mp missing]

theorem enqueueMissing_enqueued {room : Nat → Bool} {objects : List ObjectMeta} {sent : Nat}
    (enough : ∀ n < sent + objects.length, room n = true) :
    (store.enqueueMissing fetcher room objects sent).enqueued =
      (objects.filter fun object => !store.contains fetcher.bucket object.location).map fetcher.announce := by
  induction objects generalizing sent with
  | nil => rfl
  | cons object objects ih =>
    rw [List.length_cons] at enough
    rw [enqueueMissing]
    cases present : store.contains fetcher.bucket object.location with
    | true =>
      rw [if_pos rfl, List.filter_cons_of_neg (by simp [present])]
      exact ih fun n below => enough n (by omega)
    | false =>
      rw [if_neg (by simp), if_pos (enough sent (by omega)), List.filter_cons_of_pos (by simp [present]), List.map_cons]
      have rest := @ih (sent + 1) fun n below => enough n (by omega)
      exact congrArg (fetcher.announce object :: ·) rest

theorem reconcileOnce_enqueued {room : Nat → Bool} {objects : List ObjectMeta}
    (listed : fetcher.listFeatherObjects = some objects) (enough : ∀ n < objects.length, room n = true) :
    (reconcileOnce (.ok store) fetcher room).enqueued =
      (objects.filter fun object => !store.contains fetcher.bucket object.location).map fetcher.announce := by
  simp only [reconcileOnce, listed]
  exact enqueueMissing_enqueued (by simpa using enough)

/-- Of two filters of which one keeps less, both keep as much only if they keep the same. -/
theorem filter_agrees {α : Type} {p q : α → Bool} {l : List α} (less : ∀ x ∈ l, p x = true → q x = true)
    (same : (l.filter p).length = (l.filter q).length) : ∀ x ∈ l, p x = q x := by
  induction l with
  | nil => simp
  | cons x l ih =>
    have later : (l.filter p).length ≤ (l.filter q).length := by
      rw [← List.countP_eq_length_filter, ← List.countP_eq_length_filter]
      exact List.countP_mono_left fun y member => less y (List.mem_cons_of_mem _ member)
    have here := less x List.mem_cons_self
    have agree : p x = q x := by
      cases left : p x with
      | true => exact (here left).symm
      | false =>
        cases right : q x with
        | false => rfl
        | true =>
          rw [List.filter_cons_of_neg (by simp [left]), List.filter_cons_of_pos right, List.length_cons] at same
          omega
    have rest : (l.filter p).length = (l.filter q).length := by
      rw [List.filter_cons, List.filter_cons, agree] at same
      split at same <;> simpa using same
    intro y member
    rcases List.mem_cons.mp member with rfl | inside
    · exact agree
    · exact ih (fun z there => less z (List.mem_cons_of_mem _ there)) rest y inside

theorem shouldProcess_eq_missing_iff (bucket : Str) (object : ObjectMeta) :
    (!store.contains bucket object.location) = store.shouldProcess bucket object.location object.eTag ↔
      ∀ entry, store.entries.get (encode bucket object.location) = some entry →
        entry.etag.isSome = true ∧ entry.etag = object.eTag := by
  unfold contains shouldProcess
  cases store.entries.get (encode bucket object.location) with
  | none => simp
  | some entry =>
    rcases entry with ⟨_ | stored, rows⟩
    · simp
    · cases object.eTag <;> simp

/-- The scan sends what the actor would process exactly if the entries of the listed objects are current. -/
theorem agreesWithActor_iff (store : CheckpointStore) (fetcher : ObjectFetcher) :
    store.AgreesWithActor fetcher ↔ store.EntriesCurrent fetcher := by
  constructor
  · intro agrees objects listed object member
    have sent := agrees objects (fun _ => true) listed fun _ _ => rfl
    rw [reconcileOnce_enqueued listed fun _ _ => rfl] at sent
    have lengths := congrArg List.length sent
    rw [List.length_map, List.length_map] at lengths
    have less : ∀ object ∈ objects, (!store.contains fetcher.bucket object.location) = true →
        store.shouldProcess fetcher.bucket object.location object.eTag = true := fun object _ missing =>
      shouldProcess_of_missing (by simpa using missing) object.eTag
    exact (shouldProcess_eq_missing_iff fetcher.bucket object).mp (filter_agrees less lengths object member)
  · intro current objects room listed enough
    rw [reconcileOnce_enqueued listed enough]
    congr 1
    refine List.filter_congr fun object member => ?_
    exact (shouldProcess_eq_missing_iff fetcher.bucket object).mpr (current objects listed object member)

/-! An object that was processed with one etag is listed with another. -/

def overwrittenKey : Str := "live/data/trades/A.B/c.feather".toList

def processedOnce : CheckpointStore :=
  marked {} ⟨"market-data".toList, overwrittenKey, some "e1".toList, 2⟩

def listingNew : ObjectFetcher where
  bucket := "market-data".toList
  keyPrefix := "live/".toList
  objectPath key := key
  listWithOffset _ := [some ⟨overwrittenKey, some "e2".toList⟩]

/-- The new version is not sent. -/
theorem overwritten_object_hidden : ¬ processedOnce.AgreesWithActor listingNew := by
  intro agrees
  have sent := agrees [⟨overwrittenKey, some "e2".toList⟩] (fun _ => true) (by decide +kernel) fun _ _ => rfl
  exact absurd sent (by decide +kernel)

end CheckpointStore
end QuestRouter.Ingest
