import QuestRouter.Ingest.Checkpoint
import QuestRouter.Protocol.IlpBatch

/-!
# Ingest actor

The actor takes objects from its mailbox one at a time: it fetches an object, decodes it into lines and
forwards them, three times at most, and then records the object. The forwarder and the checkpoint live
as long as the actor.
-/

namespace QuestRouter.Ingest
open Text Protocol

def shouldIngestKey (key : Str) : Bool :=
  if ['/'].isSuffixOf key then false
  else
    let lower := toAsciiLowercase key
    if !(".feather".toList.isSuffixOf lower || ".arrow".toList.isSuffixOf lower) then false
    else !(".part".toList.isSuffixOf lower || ".tmp".toList.isSuffixOf lower)

def matchesPrefix (key start : Str) : Bool := start.isEmpty || start.isPrefixOf key

structure ProcessObject where
  bucket : Str
  key : Str
  etag : Option Str
  deriving DecidableEq, Repr

/-- Everything the actor does not decide. -/
structure World where
  forward : Outside
  bucket : Str
  keyPrefix : Str
  /-- The location that the object store reads for a key. -/
  objectPath : Str → Str
  /-- The bytes and the etag of each object when the n-th fetch is made. -/
  stored : Nat → Str → Str → Option (Bytes × Option Str)
  fetches : Nat → Bool
  decodeFeatherToIlp : Str → Bytes → Option (Str × List Str)
  persists : Nat → Bool

inductive IngestError where
  | get
  | decode
  | forward (e : ForwardError)
  | checkpoint
  | failed
  deriving DecidableEq, Repr

inductive Outcome where
  | ignored
  | skipped
  | ingested (table : Str) (rows : Nat)
  deriving DecidableEq, Repr

structure IngestActor where
  checkpoint : CheckpointStore := {}
  forwarder : IlpForwarder := {}
  fetched : Nat := 0

namespace IngestActor

def getObject (w : World) (n : Nat) (key : Str) : Except IngestError (Bytes × Option Str) :=
  if w.fetches n then
    match w.stored n w.bucket (w.objectPath key) with
    | some object => .ok object
    | none => .error .get
  else .error .get

def fetchDecodeForward (w : World) (a : IngestActor) (object : ProcessObject) :
    Except IngestError (Str × Nat) × IngestActor :=
  let fetched := { a with fetched := a.fetched + 1 }
  match getObject w a.fetched object.key with
  | .error e => (.error e, fetched)
  | .ok (bytes, etagFromStore) =>
    let _etag := object.etag.or etagFromStore
    match w.decodeFeatherToIlp object.key bytes with
    | none => (.error .decode, fetched)
    | some (table, lines) =>
      match IlpForwarder.forwardBatch w.forward lines a.forwarder with
      | (.error e, forwarder) => (.error (.forward e), { fetched with forwarder })
      | (.ok (), forwarder) => (.ok (table, lines.length), { fetched with forwarder })

def recordObject (w : World) (a : IngestActor) (object : ProcessObject) (table : Str) (rows : Nat) :
    Except IngestError Outcome × IngestActor :=
  match a.checkpoint.markProcessed w.persists object.bucket object.key object.etag rows with
  | (true, checkpoint) => (.ok (.ingested table rows), { a with checkpoint })
  | (false, checkpoint) => (.error .checkpoint, { a with checkpoint })

/-- The attempts that are left. -/
def attempt (w : World) (object : ProcessObject) :
    Nat → Option IngestError → IngestActor → Except IngestError Outcome × IngestActor
  | 0, lastErr, a => (.error (lastErr.getD .failed), a)
  | n + 1, _, a =>
    match fetchDecodeForward w a object with
    | (.ok (table, rows), a) => recordObject w a object table rows
    | (.error e, a) => attempt w object n (some e) a

def processObject (w : World) (a : IngestActor) (object : ProcessObject) :
    Except IngestError Outcome × IngestActor :=
  if !shouldIngestKey object.key then (.ok .ignored, a)
  else if !matchesPrefix object.key w.keyPrefix then (.ok .ignored, a)
  else if !a.checkpoint.shouldProcess object.bucket object.key object.etag then (.ok .skipped, a)
  else attempt w object 3 none a

/-- The actor after these objects. An error is logged, and the next object is taken. -/
def run (w : World) (objects : List ProcessObject) (a : IngestActor) : IngestActor :=
  objects.foldl (fun a object => (processObject w a object).2) a

end IngestActor
end QuestRouter.Ingest
