import QuestRouter.Stream.HubFacts
import QuestRouter.Stream.Socket

/-!
# One client and its publishers

Publishers send a tick to its topic and then to the wildcard channel, and notify after each. A client's reader
changes the map of subscriptions one access at a time. Its fan-out task drains the map until nothing is left,
enables its notification, drains once more and waits.
-/

namespace QuestRouter.Stream
open Text Data Data.Broadcast

/-- A tick in memory: where it lies, which publish made it, and which publishes had returned before. -/
structure SharedTick (F : Type) extends StreamTick F where
  topic : Str
  address : Nat
  number : Nat
  earlier : List Nat

inductive PublishStage (F : Type) where
  /-- Somebody subscribes, and the line is parsed. -/
  | started
  | sawWildcard (wildcard : Bool)
  | toTopic (tick : SharedTick F) (wildcard : Bool)
  | notifiesTopic (tick : SharedTick F) (wildcard : Bool)
  | toWildcard (tick : SharedTick F)
  | notifiesWildcard
  | returned

namespace PublishStage

variable {F : Type}

/-- The tick that the publish still refers to. -/
def tick : PublishStage F → Option (SharedTick F)
  | .toTopic tick _ | .notifiesTopic tick _ | .toWildcard tick => some tick
  | _ => none

/-- The publish has sent a tick and not notified anybody of it. -/
def notifies : PublishStage F → Bool
  | .notifiesTopic _ _ | .notifiesWildcard => true
  | _ => false

def isReturned : PublishStage F → Bool
  | .returned => true
  | _ => false

end PublishStage

structure Publish (F : Type) where
  topic : Str
  row : IlpRow F
  /-- The client was subscribed to it when it began. -/
  due : Bool
  earlier : List Nat
  stage : PublishStage F

inductive ReaderStage where
  | idle
  /-- Subscribed, and not in the map yet. -/
  | holding (key : Str) (r : Nat)
  | leaving (key : Str)
  | counting (key : Str)
  | removing (key : Str)
  | notifies

/-- What `drain_subscriptions` has done so far, and the keys that were in the map all the time. -/
structure Drain (F : Type) where
  start : List Str
  visited : List Str
  current : Option Str
  seen : List Nat
  pending : List (SharedTick F)
  closed : List Str

def Drain.new {F : Type} (start : List Str) : Drain F := ⟨start, [], none, [], [], []⟩

inductive FanoutStage (F : Type) where
  | checking
  | draining (enabled : Bool) (drain : Drain F)
  | enabling
  | awaiting
  | ended

namespace FanoutStage

variable {F : Type}

def enabled : FanoutStage F → Bool
  | .draining enabled _ => enabled
  | .awaiting => true
  | _ => false

def isEnded : FanoutStage F → Bool
  | .ended => true
  | _ => false

/-- Read from the channels, and not queued yet. -/
def pending : FanoutStage F → List (SharedTick F)
  | .draining _ drain => drain.pending
  | _ => []

/-- The entry that the drain has locked. -/
def current : FanoutStage F → Option Str
  | .draining _ drain => drain.current
  | _ => none

/-- An entry that is taken out of the map may be passed over. -/
def forget (key : Str) : FanoutStage F → FanoutStage F
  | .draining enabled drain => .draining enabled { drain with start := drain.start.filter (· ≠ key) }
  | stage => stage

end FanoutStage

structure Client (F : Type) where
  hub : BroadcastHub (IlpRow F) (SharedTick F)
  publishes : List (Publish F)
  subscriptions : HashMap Str Nat
  reader : ReaderStage
  fanout : FanoutStage F
  lagDrops : Nat
  /-- The enabled notification has been notified. -/
  woken : Bool
  /-- Every tick that was queued for the client. -/
  queued : List (SharedTick F)
  /-- The keys that were inserted since the notification was enabled. -/
  inserted : List Str

/-- A publisher allocates at an address of its own. -/
inductive ClientEvent where
  | publish (line : Bytes)
  | publisher (i : Nat) (address : Nat)
  | subscribe (key : Str)
  | unsubscribe (key : Str)
  | reader
  | look
  | visit (key : Str)
  | receive
  | finish
  | enable
  | awake

/-- A channel that has a sender is open. -/
def BroadcastHub.hasSender {ρ τ : Type} (hub : BroadcastHub ρ τ) (channel : Nat) : Bool :=
  channel = BroadcastHub.wildcard || hub.topics.entries.any fun e => e.2.tx = channel

namespace Client

variable {F : Type}

def start : Client F := ⟨.new, [], ∅, .idle, .checking, 0, false, [], []⟩

/-- `notify_waiters`. -/
def notify (s : Client F) : Client F := { s with woken := s.woken || s.fanout.enabled }

/-- The map has a receiver for this, or will have once the reader has inserted it. -/
def subscribed (s : Client F) (key : Str) : Bool :=
  (s.subscriptions.get key).isSome ||
    match s.reader with
    | .holding held _ => held = key
    | _ => false

/-! ### Publishing -/

def begin (setup : StreamSetup F) (s : Client F) (topic : Str) (row : IlpRow F) : Publish F where
  topic
  row
  due := (setup.encodeTick row).isSome && (s.subscribed topic || s.subscribed wildcardTopic)
  earlier := (List.range s.publishes.length).filter fun i => (s.publishes[i]?).any fun p => p.stage.isReturned
  stage := if s.hub.hasSubscribers then .started else .returned

def publish (setup : StreamSetup F) (s : Client F) (line : Bytes) : Client F :=
  match setup.topicRow line with
  | none => s
  | some (topic, row) => { s with publishes := s.publishes ++ [s.begin setup topic row] }

def setStage (s : Client F) (i : Nat) (p : Publish F) (stage : PublishStage F) : Client F :=
  { s with publishes := s.publishes.set i { p with stage } }

/-- A tick lives as long as a receiver has not read it or its publish refers to it. -/
def uses (s : Client F) (address : Nat) : Bool :=
  (List.range s.hub.bus.next).any (fun r => (s.hub.bus.unread r).any fun t => t.address = address) ||
    s.publishes.any fun p => p.stage.tick.any fun t => t.address = address

def publisher (setup : StreamSetup F) (s : Client F) (i : Nat) (p : Publish F) (address : Nat) : Option (Client F) :=
  match p.stage with
  | .started => some (s.setStage i p (.sawWildcard (0 < s.hub.wildcardSubscribers)))
  | .sawWildcard wildcard =>
    let topicSubs : Bool := 0 < s.hub.topicReceiverCount p.topic
    if !wildcard && !topicSubs then some (s.setStage i p .returned)
    else
      match setup.encodeTick p.row with
      | none => some (s.setStage i p .returned)
      | some wire =>
        if s.uses address then none
        else
          let tick := ⟨⟨p.row, wire⟩, p.topic, address, i, p.earlier⟩
          some (s.setStage i p (if topicSubs then .toTopic tick wildcard else .toWildcard tick))
  | .toTopic tick wildcard =>
    some { s.setStage i p (.notifiesTopic tick wildcard) with
      hub := s.hub.sendToTopic setup.config tick.topic tick.row tick }
  | .notifiesTopic tick wildcard => some (s.setStage i p (if wildcard then .toWildcard tick else .returned)).notify
  | .toWildcard tick =>
    some { s.setStage i p .notifiesWildcard with hub := s.hub.sendWildcard setup.config tick }
  | .notifiesWildcard => some (s.setStage i p .returned).notify
  | .returned => none

/-! ### Reader -/

/-- `subscribe` or `subscribe_wildcard`, up to the insertion in the map. -/
def subscribe (s : Client F) (key : Str) : Client F :=
  { s.notify with
    hub := (s.hub.subscribeTopic key).2
    reader := .holding key (s.hub.subscribeTopic key).1 }

def unsubscribe (s : Client F) (key : Str) : Client F :=
  if key = wildcardTopic then { s.notify with hub := s.hub.unsubscribeWildcard, reader := .leaving key }
  else { s with reader := .leaving key }

def insert (s : Client F) (key : Str) (r : Nat) : Client F :=
  { s with
    hub := s.hub.dropHeld (s.subscriptions.get key)
    subscriptions := s.subscriptions.insert key r
    reader := .idle
    inserted := key :: s.inserted }

def takeOut (s : Client F) (key : Str) : Client F :=
  { s with
    hub := s.hub.dropHeld (s.subscriptions.get key)
    subscriptions := s.subscriptions.erase key
    fanout := s.fanout.forget key }

/-- The next access of the reader; an entry that is being drained is locked. -/
def readerStep (s : Client F) : Option (Client F) :=
  match s.reader with
  | .idle => none
  | .holding key r => if s.fanout.current = some key then none else some (s.insert key r)
  | .leaving key =>
    if s.fanout.current = some key then none else some { s.takeOut key with reader := .counting key }
  | .counting key => some { s with reader := if s.hub.lacksReceivers key then .removing key else .notifies }
  | .removing key => some { s with hub := s.hub.removeTopic key, reader := .notifies }
  | .notifies => some { s.notify with reader := .idle }

/-! ### Fan-out -/

/-- What the fan-out task does when `drain_subscriptions` has returned. -/
def drained (config : StreamConfig) (s : Client F) (enabled : Bool) (drain : Drain F) : Client F :=
  if drain.pending.isEmpty then
    { s with
      fanout :=
        if config.maxClientLagDrops ≤ s.lagDrops then .ended
        else if enabled then .awaiting
        else .enabling }
  else
    { s with
      queued := s.queued ++ drain.pending
      fanout := if enabled then .checking else .draining false (.new s.subscriptions.keys) }

def lag (s : Client F) (n : Nat) : Nat := min (s.lagDrops + n % 2 ^ 32) (2 ^ 32 - 1)

/-- A tick is pending unless one with its address was seen in this drain. -/
def Drain.take (drain : Drain F) (tick : SharedTick F) : Drain F :=
  if tick.address ∈ drain.seen then drain
  else { drain with seen := tick.address :: drain.seen, pending := drain.pending ++ [tick] }

/-- One `try_recv` on the locked entry. -/
def receive (config : StreamConfig) (s : Client F) (enabled : Bool) (drain : Drain F) (key : Str) (r : Nat) :
    Option (Client F) :=
  match s.hub.bus.tryRecv r with
  | none => none
  | some (.value tick, bus) =>
    some { s with hub := { s.hub with bus }, fanout := .draining enabled (Drain.take drain tick) }
  | some (.lagged n, bus) =>
    let s := { s with hub := { s.hub with bus }, lagDrops := s.lag n }
    some (if config.maxClientLagDrops ≤ s.lagDrops then s.drained config enabled drain else s)
  | some (.empty, _) =>
    let isOpen := (s.hub.bus.receiver r).any fun rc => s.hub.hasSender rc.channel
    some { s with
      fanout := .draining enabled { drain with
        current := none
        visited := key :: drain.visited
        closed := if isOpen then drain.closed else drain.closed ++ [key] } }

def step (setup : StreamSetup F) (s : Client F) : ClientEvent → Option (Client F)
  | .publish line => some (s.publish setup line)
  | .publisher i address => (s.publishes[i]?).bind fun p => s.publisher setup i p address
  | .subscribe key =>
    match s.reader with
    | .idle => some (s.subscribe key)
    | _ => none
  | .unsubscribe key =>
    match s.reader with
    | .idle => some (s.unsubscribe key)
    | _ => none
  | .reader => s.readerStep
  | .look =>
    match s.fanout with
    | .checking =>
      some (if s.subscriptions.keys.isEmpty then s else { s with fanout := .draining false (.new s.subscriptions.keys) })
    | _ => none
  | .visit key =>
    match s.fanout with
    | .draining enabled drain =>
      if drain.current = none ∧ key ∈ s.subscriptions.keys ∧ key ∉ drain.visited then
        some { s with fanout := .draining enabled { drain with current := some key } }
      else none
    | _ => none
  | .receive =>
    match s.fanout with
    | .draining enabled drain =>
      drain.current.bind fun key => (s.subscriptions.get key).bind fun r => s.receive setup.config enabled drain key r
    | _ => none
  -- every entry that was in the map all the time has been visited
  | .finish =>
    match s.fanout with
    | .draining enabled drain =>
      if drain.current = none ∧ ∀ key ∈ drain.start, key ∈ s.subscriptions.keys → key ∈ drain.visited then
        some ((drain.closed.foldl takeOut s).drained setup.config enabled drain)
      else none
    | _ => none
  | .enable =>
    match s.fanout with
    | .enabling => some { s with woken := false, inserted := [], fanout := .draining true (.new s.subscriptions.keys) }
    | _ => none
  | .awake =>
    match s.fanout with
    | .awaiting => if s.woken then some { s with fanout := .checking } else none
    | _ => none

end Client
end QuestRouter.Stream
