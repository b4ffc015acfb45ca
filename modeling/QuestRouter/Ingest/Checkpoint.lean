import QuestRouter.Config

/-!
# Checkpoint store

One entry for each object processed, with the etag of the message that had it processed. The map is
written to a file after each change; whether that works is given for every write.
-/

namespace QuestRouter.Ingest
open Text

/-- `ObjectKey::encode`. -/
def encode (bucket key : Str) : Str := bucket ++ Char.ofNat 0 :: key

structure ProcessedMeta where
  etag : Option Str
  rows : Nat
  deriving DecidableEq, Repr

/-- The entries, and how often they have been written to the file. -/
structure CheckpointStore where
  entries : HashMap Str ProcessedMeta := ∅
  writes : Nat := 0

namespace CheckpointStore

def shouldProcess (store : CheckpointStore) (bucket key : Str) (etag : Option Str) : Bool :=
  match store.entries.get (encode bucket key) with
  | none => true
  | some entry =>
    match entry.etag, etag with
    | some stored, some current => stored != current
    | _, _ => true

/-- The entry is in the map also where the file cannot be written. -/
def markProcessed (store : CheckpointStore) (persists : Nat → Bool) (bucket key : Str) (etag : Option Str)
    (rows : Nat) : Bool × CheckpointStore :=
  (persists store.writes,
    { entries := store.entries.insert (encode bucket key) { etag, rows }, writes := store.writes + 1 })

def contains (store : CheckpointStore) (bucket key : Str) : Bool :=
  (store.entries.get (encode bucket key)).isSome

theorem shouldProcess_eq_false {store : CheckpointStore} {bucket key : Str} {etag : Option Str} :
    store.shouldProcess bucket key etag = false ↔
      etag.isSome = true ∧ (store.entries.get (encode bucket key)).map ProcessedMeta.etag = some etag := by
  unfold shouldProcess
  cases store.entries.get (encode bucket key) with
  | none => simp
  | some entry =>
    rcases entry with ⟨_ | stored, rows⟩
    · cases etag <;> simp
    · cases etag <;> simp

theorem markProcessed_get (store : CheckpointStore) (persists : Nat → Bool) (bucket key : Str)
    (etag : Option Str) (rows : Nat) (object : Str) :
    (store.markProcessed persists bucket key etag rows).2.entries.get object =
      if object = encode bucket key then some { etag, rows } else store.entries.get object := by
  unfold markProcessed
  split
  · rename_i same
    rw [same]
    exact HashMap.get_insert _ _ _
  · rename_i different
    exact HashMap.get_insert_ne _ _ different

end CheckpointStore
end QuestRouter.Ingest
