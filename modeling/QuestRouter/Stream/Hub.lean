import QuestRouter.Data.Broadcast
import QuestRouter.Routing.Schema
import QuestRouter.Stream.Row

/-!
# Broadcast hub

A hub has one channel for each topic, with a window of recent rows, and one channel for all topics. A line is
published to the channel of its topic and to the wildcard channel, where somebody listens.
-/

namespace QuestRouter.Stream
open Text Routing Data.Broadcast

structure StreamConfig where
  broadcastCapacity : Nat
  replayWindow : Nat
  topicTags : List Str
  topicMissing : Str
  maxClientLagDrops : Nat
  deriving DecidableEq, Repr

def StreamConfig.default : StreamConfig := ⟨1024, 1000, ["symbol".toList], "*".toList, 50⟩

/-- A channel keeps the next power of two of values. -/
def StreamConfig.capacity (config : StreamConfig) : Nat :=
  2 ^ (List.range 64).findIdx fun k => config.broadcastCapacity ≤ 2 ^ k

theorem StreamConfig.capacity_pos (config : StreamConfig) : 0 < config.capacity := Nat.two_pow_pos _

/-! ### Topics -/

def topicSeparator : Str := "@".toList

def deriveTopic {F : Type} (row : IlpRow F) (config : StreamConfig) : Str :=
  topicSeparator.intercalate (config.topicTags.map fun tag =>
    ((row.tags.find? fun t => eqIgnoreAsciiCase t.1 tag).map Prod.snd).getD config.topicMissing)

def isBroadcastable (measurement : Str) (registry : TableRegistry) : Bool :=
  ((registry.get measurement).map (·.sharded)).getD false

/-- What a hub is made with, and the encoding of a row for the wire. -/
structure StreamSetup (F : Type) where
  config : StreamConfig
  registry : TableRegistry
  parseF64 : Str → Option F
  encodeTick : IlpRow F → Option Bytes

/-- The topic and the row of a line that is broadcast. -/
def StreamSetup.topicRow {F : Type} (setup : StreamSetup F) (line : Bytes) : Option (Str × IlpRow F) := do
  let measurement ← measurementFromIlpBytes line
  if isBroadcastable measurement setup.registry then
    let row ← parseIlpRow setup.parseF64 line
    return (deriveTopic row setup.config, row)
  else none

/-! ### The hub -/

structure StreamTick (F : Type) where
  row : IlpRow F
  wire : Bytes

structure TopicChannel (ρ : Type) where
  tx : Nat
  replay : List ρ

/-- Rows of type `ρ` are kept for replay, values of type `τ` are sent. -/
structure BroadcastHub (ρ τ : Type) where
  topics : HashMap Str (TopicChannel ρ)
  wildcardSubscribers : Nat
  bus : Bus τ
  nextChannel : Nat

namespace BroadcastHub

variable {ρ τ : Type}

def wildcard : Nat := 0

def new : BroadcastHub ρ τ := ⟨∅, 0, .new, 1⟩

def hasSubscribers (hub : BroadcastHub ρ τ) : Bool :=
  0 < hub.wildcardSubscribers || hub.topics.entries.any fun e => 0 < hub.bus.receiverCount e.2.tx

def topicReceiverCount (hub : BroadcastHub ρ τ) (topic : Str) : Nat :=
  ((hub.topics.get topic).map fun ch => hub.bus.receiverCount ch.tx).getD 0

def getOrCreateTopic (hub : BroadcastHub ρ τ) (topic : Str) : TopicChannel ρ × BroadcastHub ρ τ :=
  match hub.topics.get topic with
  | some channel => (channel, hub)
  | none =>
    let channel := ⟨hub.nextChannel, []⟩
    (channel, { hub with topics := hub.topics.insert topic channel, nextChannel := hub.nextChannel + 1 })

/-- `push_back`, then `pop_front` while there are too many. -/
def pushReplay (window : Nat) (replay : List ρ) (row : ρ) : List ρ :=
  (replay ++ [row]).drop ((replay ++ [row]).length - window)

def sendToTopic (config : StreamConfig) (hub : BroadcastHub ρ τ) (topic : Str) (row : ρ) (tick : τ) :
    BroadcastHub ρ τ :=
  let (channel, hub) := hub.getOrCreateTopic topic
  let receiverCount := hub.bus.receiverCount channel.tx
  let hub := { hub with bus := hub.bus.send config.capacity channel.tx tick }
  if 0 < receiverCount then
    { hub with
      topics := hub.topics.insert topic { channel with replay := pushReplay config.replayWindow channel.replay row } }
  else hub

def sendWildcard (config : StreamConfig) (hub : BroadcastHub ρ τ) (tick : τ) : BroadcastHub ρ τ :=
  { hub with bus := hub.bus.send config.capacity wildcard tick }

/-- The new receiver, and the hub with it. -/
def subscribe (hub : BroadcastHub ρ τ) (topic : Str) : Nat × BroadcastHub ρ τ :=
  let (channel, hub) := hub.getOrCreateTopic topic
  (hub.bus.next, { hub with bus := hub.bus.subscribe channel.tx })

/-- `fetch_add` wraps around. -/
def subscribeWildcard (hub : BroadcastHub ρ τ) : Nat × BroadcastHub ρ τ :=
  (hub.bus.next,
    { hub with
      wildcardSubscribers := (hub.wildcardSubscribers + 1) % 2 ^ 64
      bus := hub.bus.subscribe wildcard })

/-- `fetch_sub` wraps around. -/
def unsubscribeWildcard (hub : BroadcastHub ρ τ) : BroadcastHub ρ τ :=
  { hub with wildcardSubscribers := (hub.wildcardSubscribers + (2 ^ 64 - 1)) % 2 ^ 64 }

def replay (hub : BroadcastHub ρ τ) (topic : Str) (lastN : Nat) : List ρ :=
  ((hub.topics.get topic).map fun ch => ch.replay.drop (ch.replay.length - lastN)).getD []

/-- The check of `remove_subscriber`. -/
def lacksReceivers (hub : BroadcastHub ρ τ) (topic : Str) : Bool :=
  ((hub.topics.get topic).map fun ch => hub.bus.receiverCount ch.tx == 0).getD false

def removeTopic (hub : BroadcastHub ρ τ) (topic : Str) : BroadcastHub ρ τ :=
  { hub with topics := hub.topics.erase topic }

def removeSubscriber (hub : BroadcastHub ρ τ) (topic : Str) : BroadcastHub ρ τ :=
  if hub.lacksReceivers topic then hub.removeTopic topic else hub

def dropReceiver (hub : BroadcastHub ρ τ) (r : Nat) : BroadcastHub ρ τ := { hub with bus := hub.bus.drop r }

def publish {F : Type} (setup : StreamSetup F) (hub : BroadcastHub (IlpRow F) (StreamTick F)) (line : Bytes) :
    BroadcastHub (IlpRow F) (StreamTick F) :=
  if !hub.hasSubscribers then hub
  else
    match setup.topicRow line with
    | none => hub
    | some (topic, row) =>
      let wildcard := 0 < hub.wildcardSubscribers
      let topicSubs := 0 < hub.topicReceiverCount topic
      if ¬ wildcard ∧ ¬ topicSubs then hub
      else
        match setup.encodeTick row with
        | none => hub
        | some wire =>
          let hub := if topicSubs then hub.sendToTopic setup.config topic row ⟨row, wire⟩ else hub
          if wildcard then hub.sendWildcard setup.config ⟨row, wire⟩ else hub

end BroadcastHub
end QuestRouter.Stream
