import QuestRouter.Stream.Socket

/-!
# The web client

The page's client of the stream. It keeps handlers by normalized symbol, sends control messages for one key at a time
over the web socket it uses, and hands each row that arrives to the handlers of the row's normalized symbol.
-/

namespace QuestRouter.Stream.Web
open Text Data

/-- `WhiteSpace` and `LineTerminator` of ECMAScript. -/
def isWhiteSpace (c : Char) : Bool :=
  let n := c.toNat
  (0x09 ≤ n && n ≤ 0x0D) || n == 0x20 || n == 0xA0 || n == 0x1680 || (0x2000 ≤ n && n ≤ 0x200A) || n == 0x2028 ||
    n == 0x2029 || n == 0x202F || n == 0x205F || n == 0x3000 || n == 0xFEFF

def trim (s : Str) : Str := ((s.dropWhile isWhiteSpace).reverse.dropWhile isWhiteSpace).reverse

/-- A row as the page reads it. -/
structure PageRow where
  measurement : Str
  tags : List (Str × Str)
  deriving DecidableEq, Repr

inductive Payload where
  | row (row : PageRow)
  | replay (topic : Str) (rows : List PageRow)
  deriving DecidableEq, Repr

/-- What the page has from its browser and from the MessagePack library; `decode` may throw. -/
structure Browser where
  toLowerCase : Str → Str
  decode : Bytes → Option Payload

namespace Browser

variable (browser : Browser)

/-- Of the characters of ASCII only the capital letters have another lower case. -/
def LowersAscii : Prop := ∀ s : Str, (∀ c ∈ s, c.toNat < 128) → browser.toLowerCase s = toAsciiLowercase s

def normalizeTopic (topic : Str) : Str := browser.toLowerCase (trim topic)

def tagsToMap (tags : List (Str × Str)) : HashMap Str Str :=
  .collect (tags.map fun tag => (browser.toLowerCase tag.1, tag.2))

def deriveTopicFromRow (row : PageRow) : Str :=
  ((browser.tagsToMap row.tags).get "symbol".toList).getD row.measurement

end Browser

inductive ControlIn where
  | subscribe (topics : List Str)
  | unsubscribe (topics : List Str)
  | replay (topic : Str) (lastN : Nat)
  deriving DecidableEq, Repr

inductive ReadyState where
  | connecting
  /-- With the connection of the server, and the messages that its reader has not handled. -/
  | opened (connection : Nat) (sent : List ControlIn)
  /-- Closing or closed. -/
  | closed
  deriving DecidableEq, Repr

structure WebSocket where
  readyState : ReadyState
  /-- `onclose` is set, and has not been called. -/
  onclose : Bool
  deriving DecidableEq, Repr

/-- The handlers of a topic are of type `H`; `ws` is the place of a socket among all that were made. -/
structure StreamClient (H : Type) where
  topics : HashMap Str H
  sockets : List WebSocket
  ws : Option Nat
  onGlobalRow : Bool

inductive HandlerCall (H : Type) where
  | onRow (handlers : H) (row : PageRow)
  | onReplay (handlers : H) (topic : Str) (rows : List PageRow)
  | onGlobalRow (topic : Str) (row : PageRow)
  deriving DecidableEq, Repr

namespace StreamClient

variable {H : Type} (browser : Browser) (client : StreamClient H)

def new (onGlobalRow : Bool) : StreamClient H := ⟨∅, [], none, onGlobalRow⟩

def readyState : Option ReadyState := client.ws.bind fun j => (client.sockets[j]?).map WebSocket.readyState

def isOpen : Bool :=
  match client.readyState with
  | some (.opened _ _) => true
  | _ => false

def setState (j : Nat) (state : ReadyState) : StreamClient H :=
  { client with sockets := client.sockets.modify j fun socket => { socket with readyState := state } }

/-- A socket that is connecting throws, and one that is closed drops the message. -/
def send (message : ControlIn) : StreamClient H :=
  match client.ws, client.readyState with
  | some j, some (.opened connection sent) => client.setState j (.opened connection (sent ++ [message]))
  | _, _ => client

def sendSubscribe (topic : Str) : StreamClient H := client.send (.subscribe [topic])

def sendReplay (topic : Str) : StreamClient H := client.send (.replay topic 500)

/-- `open`. -/
def openSocket : StreamClient H :=
  { client with sockets := client.sockets ++ [⟨.connecting, true⟩], ws := some client.sockets.length }

def addTopic (topic : Str) (handlers : H) : StreamClient H :=
  let key := browser.normalizeTopic topic
  if key = [] then client
  else
    let client := { client with topics := client.topics.insert key handlers }
    if client.isOpen then (client.sendSubscribe key).sendReplay key
    else if client.ws.isNone then client.openSocket
    else client

def updateTopic (oldTopic newTopic : Str) (handlers : H) : StreamClient H :=
  let oldKey := browser.normalizeTopic oldTopic
  let newKey := browser.normalizeTopic newTopic
  if newKey = [] then client
  else
    let moves := oldKey ≠ [] ∧ oldKey ≠ newKey
    let topics := if moves then client.topics.erase oldKey else client.topics
    let client := { client with topics := topics.insert newKey handlers }
    if client.isOpen then
      let client := if moves then client.send (.unsubscribe [oldKey]) else client
      (client.sendSubscribe newKey).sendReplay newKey
    else if client.ws.isNone then client.openSocket
    else client

def disconnect : StreamClient H :=
  match client.ws with
  | some j => { client with sockets := client.sockets.modify j fun _ => ⟨.closed, false⟩, ws := none }
  | none => client

def removeTopic (topic : Str) (disconnectIfEmpty : Bool) : StreamClient H :=
  let key := browser.normalizeTopic topic
  if key = [] then client
  else
    let client := { client with topics := client.topics.erase key }
    let client := if client.isOpen then client.send (.unsubscribe [key]) else client
    if disconnectIfEmpty ∧ client.topics.keys = [] then client.disconnect else client

def onopen : StreamClient H :=
  client.topics.keys.foldl (fun client topic => (client.sendSubscribe topic).sendReplay topic) client

def onmessage (data : Bytes) : List (HandlerCall H) :=
  match browser.decode data with
  | none => []
  | some (.replay topic rows) =>
    match client.topics.get (browser.normalizeTopic topic) with
    | some handlers => [.onReplay handlers topic rows]
    | none => []
  | some (.row row) =>
    let topic := browser.normalizeTopic (browser.deriveTopicFromRow row)
    (if client.onGlobalRow then [.onGlobalRow topic row] else []) ++
      match client.topics.get topic with
      | some handlers => [.onRow handlers row]
      | none => []

end StreamClient

/-! ### The page and the server -/

/-- The handlers, with the symbol they were given for, trimmed. -/
structure Registration (H : Type) where
  symbol : Str
  handlers : H
  deriving DecidableEq, Repr

/-- A page with its client, and the server. What the page asked for is kept by the symbols as it gave them. -/
structure Page (F H : Type) where
  client : StreamClient (Registration H)
  server : StreamServer F
  wanted : HashMap Str H

/-- What the page asks of its client, what happens to its sockets, and what happens on the server. A timer may open
a socket at any time. -/
inductive PageEvent (H : Type) where
  | addTopic (symbol : Str) (handlers : H)
  | updateTopic (old new : Str) (handlers : H)
  | removeTopic (symbol : Str) (disconnectIfEmpty : Bool)
  | disconnect
  | onopen (j : Nat)
  | closing (j : Nat)
  | onclose (j : Nat)
  | reconnect
  /-- The server's reader handles the next message of the socket. -/
  | control (j : Nat)
  | server (e : SocketEvent)

/-- The topics of a message one by one; a replay is answered without a change of the server. -/
def ControlIn.events (connection : Nat) : ControlIn → List SocketEvent
  | .subscribe topics => topics.map (.subscribe connection)
  | .unsubscribe topics => topics.map (.unsubscribe connection)
  | .replay _ _ => []

/-- A message of this connection. -/
def speaksFor (connection : Nat) : SocketEvent → Bool
  | .subscribe i _ | .unsubscribe i _ => i == connection
  | _ => false

/-- The messages of an open socket are the page's own. -/
def WebSocket.mayBeLeft (e : SocketEvent) (socket : WebSocket) : Bool :=
  match socket.readyState with
  | .opened connection _ => !speaksFor connection e
  | _ => true

namespace Page

variable {F H : Type} (browser : Browser) (setup : StreamSetup F)

def start (onGlobalRow : Bool) : Page F H := ⟨.new onGlobalRow, .start, ∅⟩

/-- A symbol of which nothing is left is not asked for. -/
def wants (wanted : HashMap Str H) : PageEvent H → HashMap Str H
  | .addTopic symbol handlers =>
    if browser.normalizeTopic symbol = [] then wanted else wanted.insert (trim symbol) handlers
  | .updateTopic old new handlers =>
    if browser.normalizeTopic new = [] then wanted else (wanted.erase (trim old)).insert (trim new) handlers
  | .removeTopic symbol _ => if browser.normalizeTopic symbol = [] then wanted else wanted.erase (trim symbol)
  | _ => wanted

def act (s : Page F H) : PageEvent H → Option (StreamClient (Registration H) × StreamServer F)
  | .addTopic symbol handlers => some (s.client.addTopic browser symbol ⟨trim symbol, handlers⟩, s.server)
  | .updateTopic old new handlers => some (s.client.updateTopic browser old new ⟨trim new, handlers⟩, s.server)
  | .removeTopic symbol disconnectIfEmpty => some (s.client.removeTopic browser symbol disconnectIfEmpty, s.server)
  | .disconnect => some (s.client.disconnect, s.server)
  | .onopen j =>
    match s.client.sockets[j]? with
    | some ⟨.connecting, _⟩ =>
      (s.server.step setup .connect).map fun server =>
        ((s.client.setState j (.opened s.server.connections.length [])).onopen, server)
    | _ => none
  | .closing j =>
    match s.client.sockets[j]? with
    | some ⟨.connecting, _⟩ | some ⟨.opened _ _, _⟩ => some (s.client.setState j .closed, s.server)
    | _ => none
  | .onclose j =>
    match s.client.sockets[j]? with
    | some ⟨.closed, true⟩ =>
      some ({ s.client with sockets := s.client.sockets.set j ⟨.closed, false⟩, ws := none }, s.server)
    | _ => none
  | .reconnect => some (s.client.openSocket, s.server)
  | .control j =>
    match s.client.sockets[j]? with
    | some ⟨.opened connection (message :: sent), _⟩ =>
      (Machine.run (StreamServer.step setup) s.server (message.events connection)).map fun server =>
        (s.client.setState j (.opened connection sent), server)
    | _ => none
  | .server e =>
    if s.client.sockets.all (WebSocket.mayBeLeft e) then (s.server.step setup e).map fun server => (s.client, server)
    else none

def step (s : Page F H) (e : PageEvent H) : Option (Page F H) :=
  (s.act browser setup e).map fun (client, server) => ⟨client, server, wants browser s.wanted e⟩

/-! ### What a step does -/

inductive Acts (s : Page F H) : PageEvent H → StreamClient (Registration H) → StreamServer F → Prop
  | addTopic (symbol : Str) (handlers : H) :
      Acts s (.addTopic symbol handlers) (s.client.addTopic browser symbol ⟨trim symbol, handlers⟩) s.server
  | updateTopic (old new : Str) (handlers : H) :
      Acts s (.updateTopic old new handlers) (s.client.updateTopic browser old new ⟨trim new, handlers⟩) s.server
  | removeTopic (symbol : Str) (disconnectIfEmpty : Bool) :
      Acts s (.removeTopic symbol disconnectIfEmpty) (s.client.removeTopic browser symbol disconnectIfEmpty) s.server
  | disconnect : Acts s .disconnect s.client.disconnect s.server
  | onopen {j : Nat} {onclose : Bool} (connecting : s.client.sockets[j]? = some ⟨.connecting, onclose⟩) :
      Acts s (.onopen j) (s.client.setState j (.opened s.server.connections.length [])).onopen
        { s.server with connections := s.server.connections ++ [.new] }
  | closing {j : Nat} {socket : WebSocket} (there : s.client.sockets[j]? = some socket)
      (alive : socket.readyState ≠ .closed) : Acts s (.closing j) (s.client.setState j .closed) s.server
  | onclose {j : Nat} (closed : s.client.sockets[j]? = some ⟨.closed, true⟩) :
      Acts s (.onclose j) { s.client with sockets := s.client.sockets.set j ⟨.closed, false⟩, ws := none } s.server
  | reconnect : Acts s .reconnect s.client.openSocket s.server
  | control {j connection : Nat} {message : ControlIn} {sent : List ControlIn} {onclose : Bool}
      {server : StreamServer F} (there : s.client.sockets[j]? = some ⟨.opened connection (message :: sent), onclose⟩)
      (handled : Machine.run (StreamServer.step setup) s.server (message.events connection) = some server) :
      Acts s (.control j) (s.client.setState j (.opened connection sent)) server
  | server {e : SocketEvent} {server : StreamServer F} (left : s.client.sockets.all (WebSocket.mayBeLeft e) = true)
      (stepped : s.server.step setup e = some server) : Acts s (.server e) s.client server

theorem act_acts {s : Page F H} {e : PageEvent H} {client : StreamClient (Registration H)} {server : StreamServer F}
    (h : s.act browser setup e = some (client, server)) : Acts browser setup s e client server := by
  cases e with
  | addTopic symbol handlers => cases h; exact .addTopic symbol handlers
  | updateTopic old new handlers => cases h; exact .updateTopic old new handlers
  | removeTopic symbol disconnectIfEmpty => cases h; exact .removeTopic symbol disconnectIfEmpty
  | disconnect => cases h; exact .disconnect
  | onopen j =>
    unfold act at h
    dsimp only at h
    split at h
    · rename_i connecting
      cases h
      exact .onopen connecting
    · cases h
  | closing j =>
    unfold act at h
    dsimp only at h
    split at h
    · rename_i there
      cases h
      exact .closing there nofun
    · rename_i there
      cases h
      exact .closing there nofun
    · cases h
  | onclose j =>
    unfold act at h
    dsimp only at h
    split at h
    · rename_i closed
      cases h
      exact .onclose closed
    · cases h
  | reconnect => cases h; exact .reconnect
  | control j =>
    unfold act at h
    dsimp only at h
    split at h
    · rename_i there
      obtain ⟨_, handled, same⟩ := Option.map_eq_some_iff.mp h
      cases same
      exact .control there handled
    · cases h
  | server e =>
    unfold act at h
    dsimp only at h
    split at h
    · rename_i left
      obtain ⟨_, stepped, same⟩ := Option.map_eq_some_iff.mp h
      cases same
      exact .server left stepped
    · cases h

theorem step_acts {s t : Page F H} {e : PageEvent H} (h : s.step browser setup e = some t) :
    Acts browser setup s e t.client t.server ∧ t.wanted = wants browser s.wanted e := by
  obtain ⟨_, acts, rfl⟩ := Option.map_eq_some_iff.mp h
  exact ⟨act_acts browser setup acts, rfl⟩

end Page
end QuestRouter.Stream.Web
