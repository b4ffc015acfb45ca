import QuestRouter.Data.Machine
import QuestRouter.Data.Mailbox
import QuestRouter.Ingest.Events
import QuestRouter.Ingest.Idempotence
import QuestRouter.Ingest.Reconcile

/-!
# From notifications and scans to the checkpoint

Webhook calls and reconcile scans send objects to the mailbox of the actor, each at its own pace, and give up at
the first one that the mailbox has no room for. The actor takes the objects in their order, and the checkpoint and
its file change when it has processed the one in hand. Nothing that was acknowledged is lost, and once the objects of
a scan have gone through, the ones that are not recorded are those whose attempts failed.
-/

namespace QuestRouter.Ingest
open Text Data

/-- A webhook call by its body, or a scan by the checkpoint it loaded and what it lists. -/
inductive Origin where
  | webhook (body : Str)
  | scan (loaded : CheckpointStore) (fetcher : ObjectFetcher)

/-- A loop that sends objects one by one. It ends when all are sent, or when the mailbox is full. -/
structure Sender where
  origin : Origin
  left : List ProcessObject
  sent : List ProcessObject := []
  /-- Whether all were sent, once the loop has ended. -/
  ended : Option Bool := none

structure Pipeline where
  mailbox : Mailbox ProcessObject := {}
  actor : IngestActor
  /-- What the checkpoint file loads as. It is replaced as a whole. -/
  saved : CheckpointStore
  senders : List Sender := []

/-- What a pipeline runs with. -/
structure Setting where
  world : World
  capacity : Nat
  fromStr : Str → Option S3NotificationEnvelope
  http : HttpState

namespace Pipeline

inductive Event where
  /-- A call of the webhook is parsed. -/
  | notify (body : Str)
  /-- A scan loads the checkpoint and lists the objects. -/
  | scan (fetcher : ObjectFetcher)
  /-- The next `try_send` of a loop. -/
  | send (i : Nat)
  /-- The actor receives an object, which leaves its room in the mailbox. -/
  | receive
  /-- The actor has fetched, forwarded and recorded the object in hand, or has given it up. -/
  | finish

/-- The objects of a notification that are under the prefix. -/
def notified (keyPrefix : Str) (refs : List ObjectRef) : List ProcessObject :=
  (refs.filter fun ref => matchesPrefix ref.key keyPrefix).map fun ref => ⟨ref.bucket, ref.key, ref.etag⟩

/-- The listed objects that the checkpoint has no entry for. -/
def missing (loaded : CheckpointStore) (fetcher : ObjectFetcher) (objects : List ObjectMeta) : List ProcessObject :=
  (objects.filter fun object => !loaded.contains fetcher.bucket object.location).map fetcher.announce

def sendNext (capacity : Nat) (mailbox : Mailbox ProcessObject) (sender : Sender) : Mailbox ProcessObject × Sender :=
  match sender.left with
  | [] => (mailbox, { sender with ended := some true })
  | object :: left =>
    match mailbox.trySend capacity object with
    | some mailbox => (mailbox, { sender with left, sent := sender.sent ++ [object] })
    | none => (mailbox, { sender with ended := some false })

/-- The file is written where the object is recorded and the write succeeds. -/
def saves : Except IngestError Outcome → Bool
  | .ok (.ingested _ _) => true
  | _ => false

def step (c : Setting) (p : Pipeline) : Event → Option Pipeline
  | .notify body =>
    match parseNotification c.fromStr body c.http.defaultBucket with
    | none => some p
    | some refs => some { p with senders := p.senders ++ [⟨.webhook body, notified c.http.keyPrefix refs, [], none⟩] }
  | .scan fetcher =>
    match fetcher.listFeatherObjects with
    | none => some p
    | some objects =>
      some { p with senders := p.senders ++ [⟨.scan p.saved fetcher, missing p.saved fetcher objects, [], none⟩] }
  | .send i =>
    match p.senders[i]? with
    | some sender =>
      if sender.ended.isSome then none
      else
        let (mailbox, sender) := sendNext c.capacity p.mailbox sender
        some { p with mailbox, senders := p.senders.set i sender }
    | none => none
  | .receive => p.mailbox.recv.map fun mailbox => { p with mailbox }
  | .finish =>
    p.mailbox.finish.map fun (object, mailbox) =>
      let (outcome, actor) := IngestActor.processObject c.world p.actor object
      { p with mailbox, actor, saved := if saves outcome then actor.checkpoint else p.saved }

def start (checkpoint : CheckpointStore) : Pipeline := { actor := { checkpoint }, saved := checkpoint }

/-! ### Loops -/

/-- What a loop has sent and has left is what its call or its scan came to. -/
structure Sender.Kept (c : Setting) (sender : Sender) : Prop where
  asked : match sender.origin with
    | .webhook body => ∃ refs, parseNotification c.fromStr body c.http.defaultBucket = some refs ∧
        sender.sent ++ sender.left = notified c.http.keyPrefix refs
    | .scan loaded fetcher => ∃ objects, fetcher.listFeatherObjects = some objects ∧
        sender.sent ++ sender.left = missing loaded fetcher objects
  whole : sender.ended = some true → sender.left = []
  cut : sender.ended = some false → sender.left ≠ []

/-- The loop of the webhook, where the mailbox has room for so many. -/
theorem sendRefs_room (keyPrefix : Str) (k : Nat) (refs : List ObjectRef) (sent : Nat) :
    sendRefs keyPrefix (fun n => decide (n < sent + k)) refs sent =
      let all := notified keyPrefix refs
      (if k < all.length then .serviceUnavailable else .ok, all.take k) := by
  induction refs generalizing sent k with
  | nil => simp [sendRefs, notified]
  | cons ref refs ih =>
    rw [sendRefs]
    cases matching : matchesPrefix ref.key keyPrefix with
    | false =>
      have same : notified keyPrefix (ref :: refs) = notified keyPrefix refs := by
        simp [notified, matching]
      rw [same]
      exact ih k sent
    | true =>
      have first : notified keyPrefix (ref :: refs) =
          ⟨ref.bucket, ref.key, ref.etag⟩ :: notified keyPrefix refs := by
        simp [notified, matching]
      rw [first]
      cases k with
      | zero => simp
      | succ k =>
        have next := ih k (sent + 1)
        have shift : (fun n => decide (n < sent + 1 + k)) = fun n => decide (n < sent + (k + 1)) := by
          funext n
          congr 1
          rw [eq_iff_iff]
          omega
        rw [shift] at next
        simp [next]

/-! ### What is kept -/

variable {c : Setting} {p q : Pipeline} {checkpoint : CheckpointStore} {event : Event}

/-- What one turn of a loop does: it sends its next object, or it ends. -/
theorem sendNext_cases (capacity : Nat) (mailbox : Mailbox ProcessObject) (sender : Sender) :
    (∃ object left next, sender.left = object :: left ∧ mailbox.trySend capacity object = some next ∧
      sendNext capacity mailbox sender = (next, { sender with left, sent := sender.sent ++ [object] })) ∨
    ∃ whole, sendNext capacity mailbox sender = (mailbox, { sender with ended := some whole }) ∧
      (whole = true ↔ sender.left = []) := by
  unfold sendNext
  cases rest : sender.left with
  | nil => exact .inr ⟨true, rfl, iff_of_true rfl rfl⟩
  | cons object left =>
    dsimp only
    cases room : mailbox.trySend capacity object with
    | some next => exact .inl ⟨object, left, next, rfl, room, rfl⟩
    | none => exact .inr ⟨false, rfl, iff_of_false Bool.false_ne_true (List.cons_ne_nil _ _)⟩

theorem Sender.Kept.sendNext {sender : Sender} (kept : Sender.Kept c sender) (running : sender.ended = none)
    (capacity : Nat) (mailbox : Mailbox ProcessObject) : Sender.Kept c (sendNext capacity mailbox sender).2 := by
  rcases sendNext_cases capacity mailbox sender with ⟨object, left, next, rest, _, same⟩ | ⟨whole, same, ends⟩
  · rw [same]
    have split : sender.sent ++ [object] ++ left = sender.sent ++ sender.left := by rw [rest]; simp
    constructor
    · have asked := kept.asked
      dsimp only
      rw [split]
      exact asked
    · intro done
      rw [show ({ sender with left, sent := sender.sent ++ [object] } : Sender).ended = sender.ended from rfl,
        running] at done
      cases done
    · intro done
      rw [show ({ sender with left, sent := sender.sent ++ [object] } : Sender).ended = sender.ended from rfl,
        running] at done
      cases done
  · rw [same]
    refine ⟨kept.asked, fun done => ends.mp (Option.some.inj done), fun done none => ?_⟩
    have all := ends.mpr none
    rw [Option.some.inj done] at all
    cases all

theorem contains_iff_recorded {a : IngestActor} {bucket key : Str} :
    a.checkpoint.contains bucket key = true ↔ (IngestActor.recordedEtag a (encode bucket key)).isSome = true := by
  rw [CheckpointStore.contains, IngestActor.recordedEtag, Option.isSome_map]

theorem contains_processObject {w : World} {a : IngestActor} {bucket key : Str} (object : ProcessObject)
    (present : a.checkpoint.contains bucket key = true) :
    (IngestActor.processObject w a object).2.checkpoint.contains bucket key = true := by
  rw [contains_iff_recorded] at present ⊢
  rw [IngestActor.processObject_recorded]
  split
  · rfl
  · exact present

/-- Every object of the one checkpoint is in the other. -/
def Knows (store other : CheckpointStore) : Prop :=
  ∀ bucket key, other.contains bucket key = true → store.contains bucket key = true

/-- The loop is not a scan of a checkpoint with more than this one. -/
def LoadsFrom (store : CheckpointStore) (sender : Sender) : Prop :=
  ∀ loaded fetcher, sender.origin = .scan loaded fetcher → Knows store loaded

/-- The mailbox keeps its bound, the actor has processed what it is done with, in its order, what the loops have sent
is in the mailbox or was, and the actor knows what is in the file and what a scan has read there. -/
structure Kept (c : Setting) (checkpoint : CheckpointStore) (p : Pipeline) : Prop where
  room : p.mailbox.queue.length ≤ c.capacity
  ran : p.actor = IngestActor.run c.world p.mailbox.done { checkpoint }
  sent : ∀ sender ∈ p.senders, Sender.Kept c sender ∧ sender.sent.Sublist p.mailbox.accepted
  saved : Knows p.actor.checkpoint p.saved
  loaded : ∀ sender ∈ p.senders, LoadsFrom p.actor.checkpoint sender

theorem kept_start (c : Setting) (checkpoint : CheckpointStore) : Kept c checkpoint (start checkpoint) where
  room := Nat.zero_le _
  ran := rfl
  sent := nofun
  saved _ _ present := present
  loaded := nofun

theorem Kept.append {sender : Sender} (kept : Kept c checkpoint p) (new : Sender.Kept c sender)
    (nothing : sender.sent = []) (loads : LoadsFrom p.actor.checkpoint sender) :
    Kept c checkpoint { p with senders := p.senders ++ [sender] } where
  room := kept.room
  ran := kept.ran
  sent := by
    intro other member
    rcases List.mem_append.mp member with old | last
    · exact kept.sent other old
    · obtain rfl := List.mem_singleton.mp last
      exact ⟨new, nothing ▸ List.nil_sublist _⟩
  saved := kept.saved
  loaded := by
    intro other member
    rcases List.mem_append.mp member with old | last
    · exact kept.loaded other old
    · obtain rfl := List.mem_singleton.mp last
      exact loads

theorem Kept.send {i : Nat} {sender : Sender} (kept : Kept c checkpoint p) (found : p.senders[i]? = some sender)
    (running : sender.ended = none) : Kept c checkpoint { p with
      mailbox := (sendNext c.capacity p.mailbox sender).1
      senders := p.senders.set i (sendNext c.capacity p.mailbox sender).2 } := by
  have member := List.mem_of_getElem? found
  obtain ⟨own, before⟩ := kept.sent sender member
  have later := own.sendNext running c.capacity p.mailbox
  -- The mailbox is as before, or has one more object, which is the last that the loop has sent.
  have grown : (sendNext c.capacity p.mailbox sender).1.queue.length ≤ c.capacity ∧
      (sendNext c.capacity p.mailbox sender).1.done = p.mailbox.done ∧
      p.mailbox.accepted.Sublist (sendNext c.capacity p.mailbox sender).1.accepted ∧
      (sendNext c.capacity p.mailbox sender).2.sent.Sublist (sendNext c.capacity p.mailbox sender).1.accepted := by
    rcases sendNext_cases c.capacity p.mailbox sender with ⟨object, left, next, _, room, same⟩ | ⟨whole, same, _⟩
    · obtain ⟨accepted, done, bound⟩ := Mailbox.trySend_accepted room
      rw [same]
      dsimp only
      rw [accepted]
      exact ⟨bound, done, List.sublist_append_left _ _, before.append (.refl _)⟩
    · rw [same]
      exact ⟨kept.room, rfl, .refl _, before⟩
  have origin : (sendNext c.capacity p.mailbox sender).2.origin = sender.origin := by
    rcases sendNext_cases c.capacity p.mailbox sender with ⟨_, _, _, _, _, same⟩ | ⟨_, same, _⟩ <;> rw [same]
  obtain ⟨bound, done, accepted, sent⟩ := grown
  refine ⟨bound, ?_, fun other there => ?_, kept.saved, fun other there => ?_⟩
  · dsimp only
    rw [done]
    exact kept.ran
  · rcases List.mem_or_eq_of_mem_set there with old | rfl
    · exact ⟨(kept.sent other old).1, (kept.sent other old).2.trans accepted⟩
    · exact ⟨later, sent⟩
  · rcases List.mem_or_eq_of_mem_set there with old | rfl
    · exact kept.loaded other old
    · intro loaded fetcher from_
      exact kept.loaded sender member loaded fetcher (origin ▸ from_)

theorem Kept.step (kept : Kept c checkpoint p) (happens : step c p event = some q) : Kept c checkpoint q := by
  cases event with
  | notify body =>
    dsimp only [Pipeline.step] at happens
    split at happens
    · obtain rfl := Option.some.inj happens
      exact kept
    · rename_i refs parsed
      obtain rfl := Option.some.inj happens
      exact kept.append ⟨⟨refs, parsed, rfl⟩, nofun, nofun⟩ rfl nofun
  | scan fetcher =>
    dsimp only [Pipeline.step] at happens
    split at happens
    · obtain rfl := Option.some.inj happens
      exact kept
    · rename_i objects listed
      obtain rfl := Option.some.inj happens
      refine kept.append ⟨⟨objects, listed, rfl⟩, nofun, nofun⟩ rfl fun loaded fetcher same => ?_
      obtain ⟨rfl, rfl⟩ := Origin.scan.inj same
      exact kept.saved
  | send i =>
    dsimp only [Pipeline.step] at happens
    split at happens
    · rename_i sender found
      split at happens
      · cases happens
      · rename_i running
        obtain rfl := Option.some.inj happens
        exact kept.send found (by simpa using running)
    · cases happens
  | receive =>
    obtain ⟨mailbox, got, rfl⟩ := Option.map_eq_some_iff.mp happens
    obtain ⟨accepted, done, fewer⟩ := Mailbox.recv_accepted got
    refine ⟨?_, ?_, ?_, kept.saved, kept.loaded⟩
    · have room := kept.room
      show mailbox.queue.length ≤ c.capacity
      omega
    · show p.actor = IngestActor.run c.world mailbox.done _
      rw [done]
      exact kept.ran
    · show ∀ sender ∈ p.senders, Sender.Kept c sender ∧ sender.sent.Sublist mailbox.accepted
      rw [accepted]
      exact kept.sent
  | finish =>
    obtain ⟨⟨object, mailbox⟩, finished, rfl⟩ := Option.map_eq_some_iff.mp happens
    obtain ⟨accepted, done, queue⟩ := Mailbox.finish_accepted finished
    have keeps : Knows (IngestActor.processObject c.world p.actor object).2.checkpoint p.actor.checkpoint :=
      fun _ _ present => contains_processObject object present
    refine ⟨?_, ?_, ?_, ?_, fun sender member loaded fetcher origin bucket key present => ?_⟩
    · show mailbox.queue.length ≤ c.capacity
      rw [queue]
      exact kept.room
    · show (IngestActor.processObject c.world p.actor object).2 = IngestActor.run c.world mailbox.done _
      rw [done, kept.ran, IngestActor.run, IngestActor.run, List.foldl_append]
      rfl
    · show ∀ sender ∈ p.senders, Sender.Kept c sender ∧ sender.sent.Sublist mailbox.accepted
      rw [accepted]
      exact kept.sent
    · intro bucket key present
      dsimp only at present ⊢
      split at present
      · exact present
      · exact keeps bucket key (kept.saved bucket key present)
    · exact keeps bucket key (kept.loaded sender member loaded fetcher origin bucket key present)

theorem Kept.run {events : List Event} (kept : Kept c checkpoint p)
    (reached : Machine.run (Pipeline.step c) p events = some q) : Kept c checkpoint q :=
  Machine.invariant_run (fun _ _ _ kept happens => kept.step happens) kept reached

/-! ### A run

A scan lists one object that is sent and recorded, and in between a webhook call names another. -/

def listing : ObjectFetcher where
  bucket := "market-data".toList
  keyPrefix := "live/".toList
  objectPath key := key
  listWithOffset _ := [some ⟨(IngestActor.chunk none).key, some "e1".toList⟩]

def noticeBody : Str :=
  "\x7b\"Records\":[\x7b\"eventName\":\"s3:ObjectCreated:Put\",\"s3\":\x7b\"bucket\":\x7b\"name\":\"market-data\"\x7d,".toList ++
    "\"object\":\x7b\"key\":\"live/data/trades/BTCUSDT.BITUNIX/other.feather\"\x7d\x7d\x7d]\x7d".toList

def notice : S3NotificationEnvelope where
  records := [⟨some "s3:ObjectCreated:Put".toList,
    some ⟨"market-data".toList, ⟨"live/data/trades/BTCUSDT.BITUNIX/other.feather".toList, none⟩⟩⟩]

/-- The mailbox has room for one object, and the parser knows one notification. -/
def narrow : Setting where
  world := IngestActor.tradesUnder Protocol.steady
  capacity := 1
  fromStr text := if text = noticeBody then some notice else none
  http := ⟨"market-data".toList, "live/".toList⟩

/-- The second object is sent while the actor works on the first. -/
def interleaved : List Event :=
  [.scan listing, .notify noticeBody, .send 0, .receive, .send 1, .send 0, .finish, .receive, .send 1, .finish]

def chunks : List ObjectMeta := [⟨(IngestActor.chunk none).key, some "e1".toList⟩]

/-- What a scan has listed, and the prefix it scans. -/
def scanOf (sender : Sender) : Option (List ObjectMeta × Str) :=
  match sender.origin with
  | .scan _ fetcher => fetcher.listFeatherObjects.map (·, fetcher.keyPrefix)
  | .webhook _ => none

theorem scanOf_eq {sender : Sender} {objects : List ObjectMeta} {keyPrefix : Str}
    (found : scanOf sender = some (objects, keyPrefix)) : ∃ loaded fetcher, sender.origin = .scan loaded fetcher ∧
      fetcher.listFeatherObjects = some objects ∧ fetcher.keyPrefix = keyPrefix := by
  unfold scanOf at found
  split at found
  · rename_i loaded fetcher origin
    obtain ⟨_, listed, same⟩ := Option.map_eq_some_iff.mp found
    obtain ⟨rfl, prefixed⟩ := Prod.mk.inj same
    exact ⟨loaded, fetcher, origin, listed, prefixed⟩
  · cases found

set_option synthInstance.maxSize 1024 in
theorem interleaved_runs : (Machine.run (Pipeline.step narrow) (start {}) interleaved).map
    (fun p => ((p.mailbox.hand, p.mailbox.queue), p.senders.map fun sender => (scanOf sender, sender.ended))) =
      some ((none, []), [(some (chunks, "live/".toList), some true), (none, some true)]) := by
  decide +kernel

/-- The run ends with an idle actor and an empty mailbox, and both loops have sent all they had to. -/
theorem interleaved_ends : ∃ p sender loaded fetcher,
    Machine.run (Pipeline.step narrow) (start {}) interleaved = some p ∧ sender ∈ p.senders ∧
    sender.origin = .scan loaded fetcher ∧ sender.ended = some true ∧ fetcher.listFeatherObjects = some chunks ∧
    (p.mailbox.hand = none ∧ p.mailbox.queue = []) ∧ fetcher.keyPrefix = narrow.world.keyPrefix := by
  obtain ⟨p, reached, seen⟩ := Option.map_eq_some_iff.mp interleaved_runs
  obtain ⟨drained, loops⟩ := Prod.mk.inj seen
  have first : (some (chunks, "live/".toList), some true) ∈
      p.senders.map fun sender => (scanOf sender, sender.ended) := by
    rw [loops]
    exact List.mem_cons_self
  obtain ⟨sender, member, same⟩ := List.mem_map.mp first
  obtain ⟨scanned, whole⟩ := Prod.mk.inj same
  obtain ⟨loaded, fetcher, origin, listed, configured⟩ := scanOf_eq scanned
  exact ⟨p, sender, loaded, fetcher, reached, member, origin, whole, listed, Prod.mk.inj drained, configured⟩

/-! ### Acknowledged notifications -/

def answer : Bool → StatusCode
  | true => .ok
  | false => .serviceUnavailable

theorem Sender.Kept.webhook {sender : Sender} {body : Str} {whole : Bool} (kept : Sender.Kept c sender)
    (origin : sender.origin = .webhook body) (ended : sender.ended = some whole) :
    ∃ room, ingestEvents c.fromStr c.http body room = (answer whole, sender.sent) := by
  have asked := kept.asked
  rw [origin] at asked
  obtain ⟨refs, parsed, split⟩ := asked
  refine ⟨fun n => decide (n < 0 + sender.sent.length), ?_⟩
  unfold ingestEvents
  rw [parsed]
  dsimp only
  rw [sendRefs_room]
  dsimp only
  rw [← split, List.take_left', List.length_append]
  · cases whole with
    | true => simp [kept.whole ended, answer]
    | false =>
      have some := List.length_pos_iff.mpr (kept.cut ended)
      rw [if_pos (by omega)]
      rfl
  · rfl

/-- In every run the mailbox keeps its bound, and the actor is as if it had been given the objects it is done with one
after the other. A webhook call that has ended has answered and sent what it may for some room in the mailbox, and
where it answered that all is well, every object under the prefix is done with, in hand or in the mailbox. -/
theorem notifications_kept {events : List Event}
    (reached : Machine.run (Pipeline.step c) (start checkpoint) events = some p) :
    p.mailbox.queue.length ≤ c.capacity ∧
      p.actor = IngestActor.run c.world p.mailbox.done { checkpoint } ∧
      ∀ sender ∈ p.senders, ∀ body whole, sender.origin = .webhook body → sender.ended = some whole →
        (∃ room, ingestEvents c.fromStr c.http body room = (answer whole, sender.sent)) ∧
        sender.sent.Sublist (p.mailbox.done ++ (p.mailbox.hand.toList ++ p.mailbox.queue)) ∧
        (whole = true → ∃ refs, parseNotification c.fromStr body c.http.defaultBucket = some refs ∧
          sender.sent = notified c.http.keyPrefix refs) := by
  have kept := (kept_start c checkpoint).run reached
  refine ⟨kept.room, kept.ran, fun sender member body whole origin ended => ?_⟩
  obtain ⟨own, sent⟩ := kept.sent sender member
  refine ⟨own.webhook origin ended, sent, fun all => ?_⟩
  have asked := own.asked
  rw [origin] at asked
  obtain ⟨refs, parsed, split⟩ := asked
  subst all
  rw [own.whole ended, List.append_nil] at split
  exact ⟨refs, parsed, split⟩

theorem notifications_kept_interleaved : ∃ p, Machine.run (Pipeline.step narrow) (start {}) interleaved = some p ∧
    p.mailbox.queue.length ≤ 1 ∧ p.actor = IngestActor.run narrow.world p.mailbox.done {} := by
  obtain ⟨p, _, _, _, reached, _⟩ := interleaved_ends
  have kept := notifications_kept reached
  exact ⟨p, reached, kept.1, kept.2.1⟩

/-! ### Scanned objects -/

theorem attempt_records (w : World) (object : ProcessObject) (n : Nat) {lastErr : Option IngestError}
    (notYet : lastErr ≠ some .checkpoint) (a : IngestActor) :
    IngestActor.records (IngestActor.attempt w object n lastErr a).1 = true ∨
      ∃ e, e ≠ .checkpoint ∧ (IngestActor.attempt w object n lastErr a).1 = .error e := by
  induction n generalizing a lastErr with
  | zero =>
    right
    refine ⟨lastErr.getD .failed, ?_, rfl⟩
    cases lastErr with
    | none => nofun
    | some e => exact fun same => notYet (congrArg some same)
  | succ n ih =>
    rw [IngestActor.attempt]
    obtain ⟨_, other⟩ := IngestActor.fetch_frame w a object
    rcases fetched : IngestActor.fetchDecodeForward w a object with ⟨e | ⟨table, rows⟩, b⟩
    · rw [fetched] at other
      exact ih (fun same => other (congrArg Except.error (Option.some.inj same))) b
    · exact .inl (IngestActor.recordObject_recorded w b object table rows []).1

/-- An object that may be ingested has an entry when it has been processed, unless its attempts fail. -/
theorem processObject_contains {w : World} {a : IngestActor} {object : ProcessObject}
    (wanted : IngestActor.Wanted w object.key) :
    (IngestActor.processObject w a object).2.checkpoint.contains object.bucket object.key = true ∨
      ∃ e, e ≠ .checkpoint ∧ (IngestActor.processObject w a object).1 = .error e := by
  have recorded := IngestActor.processObject_recorded w a object (encode object.bucket object.key)
  rcases IngestActor.processObject_eq w a object with ⟨_, same⟩ | ⟨left, same⟩
  · have outcome := attempt_records w object 3 (fun same : none = some IngestError.checkpoint => nomatch same) a
    rw [← same] at outcome
    rcases outcome with marks | failed
    · left
      rw [contains_iff_recorded, recorded, if_pos ⟨marks, rfl⟩]
      rfl
    · exact .inr failed
  · -- The key is wanted, so it is the checkpoint that leaves the object out.
    left
    simp only [IngestActor.attempted, wanted.1, wanted.2, Bool.true_and] at left
    obtain ⟨_, entry⟩ := CheckpointStore.shouldProcess_eq_false.mp left
    apply contains_processObject
    rw [contains_iff_recorded, IngestActor.recordedEtag, entry]
    rfl

theorem contains_run {w : World} {a : IngestActor} {bucket key : Str} (objects : List ProcessObject)
    (present : a.checkpoint.contains bucket key = true) :
    (IngestActor.run w objects a).checkpoint.contains bucket key = true := by
  induction objects generalizing a with
  | nil => exact present
  | cons object objects ih => exact ih (contains_processObject object present)

/-- The attempts for an object failed when the actor took it. -/
def Failed (w : World) (checkpoint : CheckpointStore) (objects : List ProcessObject) (object : ProcessObject) : Prop :=
  ∃ before after e, objects = before ++ object :: after ∧ e ≠ .checkpoint ∧
    (IngestActor.processObject w (IngestActor.run w before { checkpoint }) object).1 = .error e

theorem run_contains {w : World} {checkpoint : CheckpointStore} {objects : List ProcessObject}
    {object : ProcessObject} (member : object ∈ objects) (wanted : IngestActor.Wanted w object.key) :
    (IngestActor.run w objects { checkpoint }).checkpoint.contains object.bucket object.key = true ∨
      Failed w checkpoint objects object := by
  obtain ⟨before, after, rfl⟩ := List.append_of_mem member
  have split : IngestActor.run w (before ++ object :: after) { checkpoint } =
      IngestActor.run w after
        (IngestActor.processObject w (IngestActor.run w before { checkpoint }) object).2 := List.foldl_append
  rcases processObject_contains (a := IngestActor.run w before { checkpoint }) wanted with present | ⟨e, kind, failed⟩
  · left
    rw [split]
    exact contains_run after present
  · exact .inr ⟨before, after, e, rfl, kind, failed⟩

theorem collectWanted_wanted {fetcher : ObjectFetcher} {items : List (Option ObjectMeta)} {objects : List ObjectMeta}
    (collected : fetcher.collectWanted items = some objects) : ∀ object ∈ objects, fetcher.wanted object = true := by
  induction items generalizing objects with
  | nil =>
    cases collected
    exact nofun
  | cons item items ih =>
    cases item with
    | none => cases collected
    | some found =>
      obtain ⟨rest, later, rfl⟩ := Option.map_eq_some_iff.mp collected
      intro object member
      split at member
      · rename_i here
        rcases List.mem_cons.mp member with rfl | inside
        · exact here
        · exact ih later object inside
      · exact ih later object member

theorem Kept.settles {sender : Sender} {loaded : CheckpointStore} {fetcher : ObjectFetcher} {objects : List ObjectMeta}
    (kept : Kept c checkpoint p) (member : sender ∈ p.senders) (origin : sender.origin = .scan loaded fetcher)
    (whole : sender.ended = some true) (listed : fetcher.listFeatherObjects = some objects)
    (settled : p.mailbox.hand = none ∧ p.mailbox.queue = []) (configured : fetcher.keyPrefix = c.world.keyPrefix) :
    ∀ object ∈ objects, p.actor.checkpoint.contains fetcher.bucket object.location = true ∨
      Failed c.world checkpoint p.mailbox.done (fetcher.announce object) := by
  obtain ⟨own, sent⟩ := kept.sent sender member
  have asked := own.asked
  rw [origin] at asked
  obtain ⟨objects', listed', split⟩ := asked
  obtain rfl : objects = objects' := Option.some.inj (listed.symm.trans listed')
  rw [own.whole whole, List.append_nil] at split
  rw [Mailbox.accepted, settled.1, settled.2, Option.toList_none, List.append_nil, List.append_nil, split] at sent
  intro object inside
  cases present : loaded.contains fetcher.bucket object.location with
  | true => exact .inl (kept.loaded sender member loaded fetcher origin _ _ present)
  | false =>
    have announced : fetcher.announce object ∈ p.mailbox.done :=
      sent.subset (List.mem_map_of_mem (List.mem_filter.mpr ⟨inside, by simp [present]⟩))
    have wanted := collectWanted_wanted listed object inside
    rw [ObjectFetcher.wanted, Bool.and_eq_true, configured] at wanted
    rw [kept.ran]
    exact run_contains announced wanted

/-- When a scan has sent all it had to, the mailbox is empty and the actor is idle, every object it listed is recorded,
unless it was taken and its attempts failed. -/
theorem scan_settles {events : List Event} {sender : Sender} {loaded : CheckpointStore} {fetcher : ObjectFetcher}
    {objects : List ObjectMeta} (reached : Machine.run (Pipeline.step c) (start checkpoint) events = some p)
    (member : sender ∈ p.senders) (origin : sender.origin = .scan loaded fetcher) (whole : sender.ended = some true)
    (listed : fetcher.listFeatherObjects = some objects) (settled : p.mailbox.hand = none ∧ p.mailbox.queue = [])
    (configured : fetcher.keyPrefix = c.world.keyPrefix) :
    ∀ object ∈ objects, p.actor.checkpoint.contains fetcher.bucket object.location = true ∨
      Failed c.world checkpoint p.mailbox.done (fetcher.announce object) :=
  ((kept_start c checkpoint).run reached).settles member origin whole listed settled configured

theorem scan_settles_interleaved : ∃ p, ∃ fetcher : ObjectFetcher,
    Machine.run (Pipeline.step narrow) (start {}) interleaved = some p ∧
    ∀ object ∈ chunks, p.actor.checkpoint.contains fetcher.bucket object.location = true ∨
      Failed narrow.world {} p.mailbox.done (fetcher.announce object) := by
  obtain ⟨p, sender, loaded, fetcher, reached, member, origin, whole, listed, settled, configured⟩ := interleaved_ends
  exact ⟨p, fetcher, reached, scan_settles reached member origin whole listed settled configured⟩

/-! ### The next scan -/

theorem attempt_persisted {w : World} (persists : ∀ n, w.persists n = true) (object : ProcessObject) (n : Nat)
    {lastErr : Option IngestError} (notYet : lastErr ≠ some .checkpoint) (a : IngestActor) :
    (IngestActor.attempt w object n lastErr a).1 ≠ .error .checkpoint := by
  induction n generalizing a lastErr with
  | zero =>
    rw [IngestActor.attempt]
    cases lastErr with
    | none =>
      intro same
      cases same
    | some e => exact fun same => notYet (congrArg some (Except.error.inj same))
  | succ n ih =>
    rw [IngestActor.attempt]
    obtain ⟨_, other⟩ := IngestActor.fetch_frame w a object
    rcases fetched : IngestActor.fetchDecodeForward w a object with ⟨e | ⟨table, rows⟩, b⟩
    · rw [fetched] at other
      exact ih (fun same => other (congrArg Except.error (Option.some.inj same))) b
    · dsimp only
      unfold IngestActor.recordObject CheckpointStore.markProcessed
      rw [persists]
      intro same
      cases same

/-- Where the file can be written, an object that is not saved changes nothing in the checkpoint. -/
theorem processObject_unsaved {w : World} (persists : ∀ n, w.persists n = true) {a : IngestActor}
    {object : ProcessObject} (unsaved : saves (IngestActor.processObject w a object).1 = false) :
    Knows a.checkpoint (IngestActor.processObject w a object).2.checkpoint := by
  have unrecorded : ¬ IngestActor.records (IngestActor.processObject w a object).1 = true := by
    rcases IngestActor.processObject_eq w a object with ⟨_, same⟩ | ⟨_, same | same⟩
    · have fresh : (none : Option IngestError) ≠ some .checkpoint := by simp
      have written := attempt_persisted persists object 3 fresh a
      rw [← same] at written
      revert unsaved written
      cases (IngestActor.processObject w a object).1 with
      | ok done => cases done <;> simp [saves, IngestActor.records]
      | error e => cases e <;> simp [IngestActor.records]
    all_goals
      rw [same]
      simp [IngestActor.records]
  intro bucket key present
  rw [contains_iff_recorded] at present ⊢
  rw [IngestActor.processObject_recorded, if_neg fun both => unrecorded both.1] at present
  exact present

theorem step_saved (persists : ∀ n, c.world.persists n = true) (before : Knows p.saved p.actor.checkpoint)
    (happens : step c p event = some q) : Knows q.saved q.actor.checkpoint := by
  cases event with
  | notify body =>
    dsimp only [Pipeline.step] at happens
    split at happens <;> cases happens <;> exact before
  | scan fetcher =>
    dsimp only [Pipeline.step] at happens
    split at happens <;> cases happens <;> exact before
  | send i =>
    dsimp only [Pipeline.step] at happens
    split at happens
    · split at happens
      · cases happens
      · cases happens
        exact before
    · cases happens
  | receive =>
    obtain ⟨mailbox, got, rfl⟩ := Option.map_eq_some_iff.mp happens
    exact before
  | finish =>
    obtain ⟨⟨object, mailbox⟩, finished, rfl⟩ := Option.map_eq_some_iff.mp happens
    dsimp only
    cases saved : saves (IngestActor.processObject c.world p.actor object).1 with
    | true => exact fun _ _ present => present
    | false =>
      intro bucket key present
      exact before bucket key (processObject_unsaved persists saved bucket key present)

/-- Whatever room a scan finds, it sends listed objects without an entry. -/
theorem enqueued_missing {loaded : CheckpointStore} {fetcher : ObjectFetcher} {room : Nat → Bool}
    {objects : List ObjectMeta} {sent : Nat} :
    (loaded.enqueueMissing fetcher room objects sent).enqueued.Sublist (missing loaded fetcher objects) := by
  induction objects generalizing sent with
  | nil => exact List.nil_sublist _
  | cons object objects ih =>
    rw [CheckpointStore.enqueueMissing]
    cases present : loaded.contains fetcher.bucket object.location with
    | true =>
      have same : missing loaded fetcher (object :: objects) = missing loaded fetcher objects := by
        simp [missing, present]
      rw [if_pos rfl, same]
      exact ih
    | false =>
      have first : missing loaded fetcher (object :: objects) =
          fetcher.announce object :: missing loaded fetcher objects := by
        simp [missing, present]
      rw [if_neg Bool.false_ne_true, first]
      split
      · exact ih.cons_cons _
      · exact List.nil_sublist _

theorem reconciled_missing {loaded : CheckpointStore} {fetcher : ObjectFetcher} {room : Nat → Bool}
    {objects : List ObjectMeta} (listed : fetcher.listFeatherObjects = some objects) :
    (CheckpointStore.reconcileOnce (.ok loaded) fetcher room).enqueued.Sublist (missing loaded fetcher objects) := by
  unfold CheckpointStore.reconcileOnce
  rw [listed]
  exact enqueued_missing

/-- If the file can be written, the next scan sends only objects that were taken and whose attempts failed. -/
theorem rescan_sends_failed {events : List Event} {sender : Sender} {loaded : CheckpointStore}
    {fetcher : ObjectFetcher} {objects : List ObjectMeta} (persists : ∀ n, c.world.persists n = true)
    (reached : Machine.run (Pipeline.step c) (start checkpoint) events = some p) (member : sender ∈ p.senders)
    (origin : sender.origin = .scan loaded fetcher) (whole : sender.ended = some true)
    (listed : fetcher.listFeatherObjects = some objects) (settled : p.mailbox.hand = none ∧ p.mailbox.queue = [])
    (configured : fetcher.keyPrefix = c.world.keyPrefix) (room : Nat → Bool) :
    ∀ object ∈ (CheckpointStore.reconcileOnce (.ok p.saved) fetcher room).enqueued,
      Failed c.world checkpoint p.mailbox.done object := by
  have kept := (kept_start c checkpoint).run reached
  have saved : Knows p.saved p.actor.checkpoint :=
    Machine.invariant_run (I := fun p => Knows p.saved p.actor.checkpoint)
      (fun _ _ _ before happens => step_saved persists before happens) (fun _ _ present => present) reached
  intro sent inside
  obtain ⟨object, among, rfl⟩ := List.mem_map.mp ((reconciled_missing listed).subset inside)
  obtain ⟨here, unsaved⟩ := List.mem_filter.mp among
  rcases kept.settles member origin whole listed settled configured object here with present | failed
  · rw [saved _ _ present] at unsaved
    cases unsaved
  · exact failed

theorem rescan_sends_interleaved : ∃ p, ∃ fetcher : ObjectFetcher,
    Machine.run (Pipeline.step narrow) (start {}) interleaved = some p ∧
    ∀ object ∈ (CheckpointStore.reconcileOnce (.ok p.saved) fetcher fun _ => true).enqueued,
      Failed narrow.world {} p.mailbox.done object := by
  obtain ⟨p, sender, loaded, fetcher, reached, member, origin, whole, listed, settled, configured⟩ := interleaved_ends
  exact ⟨p, fetcher, reached,
    rescan_sends_failed (fun _ => rfl) reached member origin whole listed settled configured fun _ => true⟩

end Pipeline
end QuestRouter.Ingest
