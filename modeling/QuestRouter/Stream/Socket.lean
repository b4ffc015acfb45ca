import QuestRouter.Data.Machine
import QuestRouter.Stream.Hub

/-!
# Stream connections

A connection has a task that handles control messages and a task that forwards ticks; both use its map of
subscriptions. When one of them ends, the connection cleans up after itself and returns, and the other goes
on as long as it likes. The map and its receivers go with the last of the three.
-/

namespace QuestRouter.Stream
open Text Data Data.Broadcast

def wildcardTopic : Str := "*".toList

structure Connection where
  subscriptions : HashMap Str Nat
  /-- `handle_socket` has not returned. -/
  isOpen : Bool
  reader : Bool
  fanout : Bool

namespace Connection

def new : Connection := ⟨∅, true, true, true⟩

/-- Nobody has the map any more. -/
def isGone (conn : Connection) : Bool := !conn.isOpen && !conn.reader && !conn.fanout

theorem isGone_closed {conn : Connection} (gone : conn.isGone = true) : conn.isOpen = false := by
  unfold isGone at gone
  simp only [Bool.and_eq_true, Bool.not_eq_true'] at gone
  exact gone.1.1

def holdsWildcard (conn : Connection) : Bool := (conn.subscriptions.get wildcardTopic).isSome

end Connection

/-- One topic of a control message, a line to publish, or the end of a task or of `handle_socket`. -/
inductive SocketEvent where
  | connect
  | subscribe (i : Nat) (topic : Str)
  | unsubscribe (i : Nat) (topic : Str)
  | publish (line : Bytes)
  | readerEnds (i : Nat)
  | fanoutEnds (i : Nat)
  | close (i : Nat)

structure StreamServer (F : Type) where
  hub : BroadcastHub (IlpRow F) (StreamTick F)
  connections : List Connection

namespace BroadcastHub

variable {ρ τ : Type}

def subscribeTopic (hub : BroadcastHub ρ τ) (topic : Str) : Nat × BroadcastHub ρ τ :=
  if topic = wildcardTopic then hub.subscribeWildcard else hub.subscribe topic

/-- A receiver taken out of a map is dropped. -/
def dropHeld (hub : BroadcastHub ρ τ) (held : Option Nat) : BroadcastHub ρ τ :=
  (held.map hub.dropReceiver).getD hub

def unsubscribeTopic (hub : BroadcastHub ρ τ) (held : Option Nat) (topic : Str) : BroadcastHub ρ τ :=
  let hub := if topic = wildcardTopic then hub.unsubscribeWildcard else hub
  (hub.dropHeld held).removeSubscriber topic

/-- The cleanup of `handle_socket`, over the topics of its map. -/
def cleanup (hub : BroadcastHub ρ τ) (topics : List Str) : BroadcastHub ρ τ :=
  topics.foldl (fun hub topic =>
    if topic = wildcardTopic then hub.unsubscribeWildcard else hub.removeSubscriber topic) hub

def dropAll (hub : BroadcastHub ρ τ) (receivers : List Nat) : BroadcastHub ρ τ :=
  { hub with bus := hub.bus.dropAll receivers }

end BroadcastHub

namespace StreamServer

variable {F : Type}

def start : StreamServer F := ⟨.new, []⟩

/-- The connection as it is left; the receivers go with the last holder of the map. -/
def settle (s : StreamServer F) (i : Nat) (hub : BroadcastHub (IlpRow F) (StreamTick F)) (conn : Connection) :
    StreamServer F :=
  if conn.isGone then
    { hub := hub.dropAll (conn.subscriptions.entries.map (·.2))
      connections := s.connections.set i { conn with subscriptions := ∅ } }
  else { hub, connections := s.connections.set i conn }

def subscribe (s : StreamServer F) (i : Nat) (conn : Connection) (topic : Str) : StreamServer F :=
  let subscribed := s.hub.subscribeTopic topic
  { hub := subscribed.2.dropHeld (conn.subscriptions.get topic)
    connections := s.connections.set i { conn with subscriptions := conn.subscriptions.insert topic subscribed.1 } }

def unsubscribe (s : StreamServer F) (i : Nat) (conn : Connection) (topic : Str) : StreamServer F :=
  { hub := s.hub.unsubscribeTopic (conn.subscriptions.get topic) topic
    connections := s.connections.set i { conn with subscriptions := conn.subscriptions.erase topic } }

def step (setup : StreamSetup F) (s : StreamServer F) : SocketEvent → Option (StreamServer F)
  | .connect => some { s with connections := s.connections ++ [.new] }
  | .publish line => some { s with hub := s.hub.publish setup line }
  | .subscribe i topic =>
    match s.connections[i]? with
    | some conn => if conn.reader then some (s.subscribe i conn topic) else none
    | none => none
  | .unsubscribe i topic =>
    match s.connections[i]? with
    | some conn => if conn.reader then some (s.unsubscribe i conn topic) else none
    | none => none
  | .readerEnds i =>
    match s.connections[i]? with
    | some conn => if conn.reader then some (s.settle i s.hub { conn with reader := false }) else none
    | none => none
  -- the client lags too far behind
  | .fanoutEnds i =>
    match s.connections[i]? with
    | some conn => if conn.fanout then some (s.settle i s.hub { conn with fanout := false }) else none
    | none => none
  | .close i =>
    match s.connections[i]? with
    | some conn =>
      if conn.isOpen && !(conn.reader && conn.fanout) then
        some (s.settle i (s.hub.cleanup conn.subscriptions.keys) { conn with isOpen := false })
      else none
    | none => none

/-! ### What a step does -/

/-- Every step but those that open a connection or publish is of one connection. -/
inductive Does (setup : StreamSetup F) (s : StreamServer F) : SocketEvent → StreamServer F → Prop
  | connect : Does setup s .connect { s with connections := s.connections ++ [.new] }
  | publish (line : Bytes) : Does setup s (.publish line) { s with hub := s.hub.publish setup line }
  | subscribe {i : Nat} {conn : Connection} (found : s.connections[i]? = some conn) (reads : conn.reader = true)
      (topic : Str) : Does setup s (.subscribe i topic) (s.subscribe i conn topic)
  | unsubscribe {i : Nat} {conn : Connection} (found : s.connections[i]? = some conn) (reads : conn.reader = true)
      (topic : Str) : Does setup s (.unsubscribe i topic) (s.unsubscribe i conn topic)
  | readerEnds {i : Nat} {conn : Connection} (found : s.connections[i]? = some conn) (reads : conn.reader = true) :
      Does setup s (.readerEnds i) (s.settle i s.hub { conn with reader := false })
  | fanoutEnds {i : Nat} {conn : Connection} (found : s.connections[i]? = some conn)
      (forwards : conn.fanout = true) :
      Does setup s (.fanoutEnds i) (s.settle i s.hub { conn with fanout := false })
  | close {i : Nat} {conn : Connection} (found : s.connections[i]? = some conn) (here : conn.isOpen = true)
      (ended : (conn.reader && conn.fanout) = false) :
      Does setup s (.close i) (s.settle i (s.hub.cleanup conn.subscriptions.keys) { conn with isOpen := false })

theorem step_does {setup : StreamSetup F} {s t : StreamServer F} {e : SocketEvent} (h : step setup s e = some t) :
    Does setup s e t := by
  cases e with
  | connect => cases h; exact .connect
  | publish line => cases h; exact .publish line
  | subscribe i topic =>
    unfold step at h
    dsimp only at h
    split at h
    · rename_i conn found
      split at h
      · rename_i reads
        cases h
        exact .subscribe found reads topic
      · cases h
    · cases h
  | unsubscribe i topic =>
    unfold step at h
    dsimp only at h
    split at h
    · rename_i conn found
      split at h
      · rename_i reads
        cases h
        exact .unsubscribe found reads topic
      · cases h
    · cases h
  | readerEnds i =>
    unfold step at h
    dsimp only at h
    split at h
    · rename_i conn found
      split at h
      · rename_i reads
        cases h
        exact .readerEnds found reads
      · cases h
    · cases h
  | fanoutEnds i =>
    unfold step at h
    dsimp only at h
    split at h
    · rename_i conn found
      split at h
      · rename_i forwards
        cases h
        exact .fanoutEnds found forwards
      · cases h
    · cases h
  | close i =>
    unfold step at h
    dsimp only at h
    split at h
    · rename_i conn found
      split at h
      · rename_i ended
        cases h
        rw [Bool.and_eq_true, Bool.not_eq_true'] at ended
        exact .close found ended.1 ended.2
      · cases h
    · cases h

end StreamServer
end QuestRouter.Stream
