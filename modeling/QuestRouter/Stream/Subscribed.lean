import QuestRouter.Stream.WebClient
import QuestRouter.Stream.Attached

/-!
# What a page is subscribed to

Once the server has handled the messages that are on their way, the connection of the socket in use holds exactly
the keys of the client's map. Each of these has the handlers of one symbol that the page asked for.
-/

namespace QuestRouter.Stream.Web
open Text Data

/-! ### Messages -/

namespace ControlIn

/-- Whether the key is held after the message. -/
def effect (key : Str) (held : Bool) : ControlIn → Bool
  | .subscribe topics => held || topics.contains key
  | .unsubscribe topics => held && !topics.contains key
  | .replay _ _ => held

/-- Whether the key is held after the messages. -/
def after (key : Str) (messages : List ControlIn) (held : Bool) : Bool := messages.foldl (effect key) held

def mentions (key : Str) : ControlIn → Bool
  | .subscribe topics | .unsubscribe topics => topics.contains key
  | .replay _ _ => false

variable {key : Str} {messages more : List ControlIn} {held : Bool}

theorem after_append : after key (messages ++ more) held = after key more (after key messages held) :=
  List.foldl_append

theorem after_unmentioned (none : ∀ message ∈ messages, message.mentions key = false) :
    after key messages held = held := by
  induction messages generalizing held with
  | nil => rfl
  | cons message messages ih =>
    obtain ⟨first, rest⟩ := List.forall_mem_cons.mp none
    have same : message.effect key held = held := by
      unfold mentions at first
      unfold effect
      cases message <;> simp_all
    rw [after, List.foldl_cons, same]
    exact ih rest

/-- A new socket asks for each topic of the map. -/
theorem after_requests (topics : List Str) :
    after key (topics.flatMap fun topic => [.subscribe [topic], .replay topic 500]) held =
      (held || topics.contains key) := by
  induction topics generalizing held with
  | nil => simp [after]
  | cons topic topics ih =>
    rw [List.flatMap_cons, after_append, ih]
    simp [after, effect, Bool.or_assoc]

theorem foldl_subscribes (key : Str) (topics : List Str) (held : Bool) :
    topics.foldl (fun held topic => held || key == topic) held = effect key held (.subscribe topics) := by
  change _ = (held || topics.contains key)
  induction topics generalizing held with
  | nil => simp
  | cons topic topics ih => rw [List.foldl_cons, ih, List.contains_cons, Bool.or_assoc]

theorem foldl_unsubscribes (key : Str) (topics : List Str) (held : Bool) :
    topics.foldl (fun held topic => held && !(key == topic)) held = effect key held (.unsubscribe topics) := by
  change _ = (held && !topics.contains key)
  induction topics generalizing held with
  | nil => simp
  | cons topic topics ih => rw [List.foldl_cons, ih, List.contains_cons, Bool.not_or, Bool.and_assoc]

end ControlIn

/-! ### The server's side of a connection -/

namespace Page

variable {F : Type} {setup : StreamSetup F} {s t : StreamServer F} {i other : Nat} {conn conn' : Connection}

/-- The connection has been replaced by one that reads on and holds the keys that remain under the effect. -/
def Handled (s t : StreamServer F) (i : Nat) (conn : Connection) (effect : Str → Bool → Bool) : Prop :=
  ∃ conn', t.connections = s.connections.set i conn' ∧ conn'.reader = true ∧
    ∀ key, (conn'.subscriptions.get key).isSome = effect key (conn.subscriptions.get key).isSome

theorem handled_nothing (found : s.connections[i]? = some conn) (reads : conn.reader = true) :
    Handled s s i conn fun _ held => held := by
  obtain ⟨inside, same⟩ := List.getElem?_eq_some_iff.mp found
  exact ⟨conn, by rw [← same, List.set_getElem_self], reads, fun _ => rfl⟩

theorem Handled.found {effect : Str → Bool → Bool} (handled : Handled s t i conn effect)
    (found : s.connections[i]? = some conn) : ∃ conn', t.connections[i]? = some conn' ∧ conn'.reader = true ∧
      ∀ key, (conn'.subscriptions.get key).isSome = effect key (conn.subscriptions.get key).isSome := by
  obtain ⟨conn', same, reads, keys⟩ := handled
  exact ⟨conn', by rw [same, Machine.getElem?_replaced found, if_pos rfl], reads, keys⟩

theorem Handled.others {effect : Str → Bool → Bool} (handled : Handled s t i conn effect)
    (found : s.connections[i]? = some conn) (different : other ≠ i) :
    t.connections[other]? = s.connections[other]? := by
  obtain ⟨conn', same, _⟩ := handled
  rw [same, Machine.getElem?_replaced found, if_neg different]

theorem Handled.trans {u : StreamServer F} {effect effect' : Str → Bool → Bool}
    (first : Handled s u i conn effect) (found : s.connections[i]? = some conn)
    (second : ∀ conn', u.connections[i]? = some conn' → conn'.reader = true → Handled u t i conn' effect') :
    Handled s t i conn fun key held => effect' key (effect key held) := by
  obtain ⟨between, there, reads, keys⟩ := first.found found
  obtain ⟨conn', same, reads', keys'⟩ := second between there reads
  obtain ⟨_, replaced, _⟩ := first
  refine ⟨conn', ?_, reads', fun key => by rw [keys', keys]⟩
  rw [same, replaced, List.set_set]

theorem handled_subscribe {topic : Str} (found : s.connections[i]? = some conn) (reads : conn.reader = true)
    (h : StreamServer.step setup s (.subscribe i topic) = some t) :
    Handled s t i conn fun key held => held || key == topic := by
  cases StreamServer.step_does h with
  | @subscribe _ conn' found' =>
    obtain rfl := Option.some.inj (found.symm.trans found')
    refine ⟨_, rfl, reads, fun key => ?_⟩
    by_cases same : key = topic
    · subst same
      simp
    · dsimp only
      rw [HashMap.get_insert_ne _ _ same]
      simp [same]

theorem handled_unsubscribe {topic : Str} (found : s.connections[i]? = some conn) (reads : conn.reader = true)
    (h : StreamServer.step setup s (.unsubscribe i topic) = some t) :
    Handled s t i conn fun key held => held && !(key == topic) := by
  cases StreamServer.step_does h with
  | @unsubscribe _ conn' found' =>
    obtain rfl := Option.some.inj (found.symm.trans found')
    refine ⟨_, rfl, reads, fun key => ?_⟩
    dsimp only
    rw [HashMap.get_erase]
    by_cases same : key = topic <;> simp [same]

theorem handled_each {event : Str → SocketEvent} {effect : Str → Str → Bool → Bool}
    (one : ∀ {s t : StreamServer F} {conn : Connection} {topic}, s.connections[i]? = some conn → conn.reader = true →
      StreamServer.step setup s (event topic) = some t → Handled s t i conn (effect topic))
    {topics : List Str} (found : s.connections[i]? = some conn) (reads : conn.reader = true)
    (reached : Machine.run (StreamServer.step setup) s (topics.map event) = some t) :
    Handled s t i conn fun key held => topics.foldl (fun held topic => effect topic key held) held := by
  induction topics generalizing s conn with
  | nil =>
    cases reached
    exact handled_nothing found reads
  | cons topic topics ih =>
    obtain ⟨u, first, rest⟩ := Machine.run_cons.mp reached
    exact (one found reads first).trans found fun _ found' reads' => ih found' reads' rest

/-- The server's reader does to the map what the message asks for. -/
theorem handled_message {message : ControlIn} (found : s.connections[i]? = some conn) (reads : conn.reader = true)
    (reached : Machine.run (StreamServer.step setup) s (message.events i) = some t) :
    Handled s t i conn fun key held => message.effect key held := by
  cases message with
  | subscribe topics =>
    obtain ⟨conn', same, reads', keys⟩ := handled_each handled_subscribe found reads reached
    exact ⟨conn', same, reads', fun key => (keys key).trans (ControlIn.foldl_subscribes key topics _)⟩
  | unsubscribe topics =>
    obtain ⟨conn', same, reads', keys⟩ := handled_each handled_unsubscribe found reads reached
    exact ⟨conn', same, reads', fun key => (keys key).trans (ControlIn.foldl_unsubscribes key topics _)⟩
  | replay topic lastN =>
    cases reached
    exact handled_nothing found reads

/-- A connection whose reader goes on keeps its map. -/
theorem settle_connections (s : StreamServer F) (j : Nat) (hub : BroadcastHub (IlpRow F) (StreamTick F))
    (conn : Connection) : ∃ conn', (s.settle j hub conn).connections = s.connections.set j conn' ∧
      (conn'.reader = true → conn.reader = true ∧ conn'.subscriptions = conn.subscriptions) := by
  unfold StreamServer.settle
  split
  · rename_i gone
    refine ⟨_, rfl, fun reads => ?_⟩
    unfold Connection.isGone at gone
    simp_all
  · exact ⟨conn, rfl, fun reads => ⟨reads, rfl⟩⟩

/-- A connection that is read from was read from before, and its map is as it was but for messages of its own. -/
theorem step_before {e : SocketEvent} (h : StreamServer.step setup s e = some t) (inside : i < s.connections.length)
    (found : t.connections[i]? = some conn') (reads : conn'.reader = true) :
    ∃ conn, s.connections[i]? = some conn ∧ conn.reader = true ∧
      (speaksFor i e = false → conn.subscriptions = conn'.subscriptions) := by
  have replaced : ∀ {j : Nat} {before after : Connection}, s.connections[j]? = some before →
      t.connections = s.connections.set j after → (after.reader = true → before.reader = true) →
      (after.reader = true → speaksFor j e = false → before.subscriptions = after.subscriptions) →
        ∃ conn, s.connections[i]? = some conn ∧ conn.reader = true ∧
          (speaksFor i e = false → conn.subscriptions = conn'.subscriptions) := by
    intro j before after there same read kept
    rw [same, Machine.getElem?_replaced there] at found
    split at found
    · rename_i here
      cases found
      exact ⟨before, here ▸ there, read reads, fun silent => kept reads (here ▸ silent)⟩
    · exact ⟨conn', found, reads, fun _ => rfl⟩
  cases StreamServer.step_does h with
  | connect =>
    rw [List.getElem?_append_left inside] at found
    exact ⟨conn', found, reads, fun _ => rfl⟩
  | publish line => exact ⟨conn', found, reads, fun _ => rfl⟩
  | @subscribe j before there read topic =>
    exact replaced there rfl (fun _ => read) fun _ silent => by simp [speaksFor] at silent
  | @unsubscribe j before there read topic =>
    exact replaced there rfl (fun _ => read) fun _ silent => by simp [speaksFor] at silent
  | @readerEnds j before there read =>
    obtain ⟨after, same, kept⟩ := settle_connections s j s.hub { before with reader := false }
    exact replaced there same (fun _ => read) fun reads _ => nomatch (kept reads).1
  | @fanoutEnds j before there forwards =>
    obtain ⟨after, same, kept⟩ := settle_connections s j s.hub { before with fanout := false }
    exact replaced there same (fun reads => (kept reads).1) fun reads _ => (kept reads).2.symm
  | @close j before there isOpen ended =>
    obtain ⟨after, same, kept⟩ := settle_connections s j (s.hub.cleanup before.subscriptions.keys)
      { before with isOpen := false }
    exact replaced there same (fun reads => (kept reads).1) fun reads _ => (kept reads).2.symm

theorem step_length {e : SocketEvent} (h : StreamServer.step setup s e = some t) :
    s.connections.length ≤ t.connections.length := by
  cases StreamServer.step_does h with
  | connect => simp
  | publish line => exact Nat.le_refl _
  | subscribe | unsubscribe => exact (List.length_set ..).ge
  | @readerEnds j before there read =>
    obtain ⟨_, same, _⟩ := settle_connections s j s.hub { before with reader := false }
    rw [same, List.length_set]
  | @fanoutEnds j before there forwards =>
    obtain ⟨_, same, _⟩ := settle_connections s j s.hub { before with fanout := false }
    rw [same, List.length_set]
  | @close j before there isOpen ended =>
    obtain ⟨_, same, _⟩ := settle_connections s j (s.hub.cleanup before.subscriptions.keys)
      { before with isOpen := false }
    rw [same, List.length_set]

theorem run_before {events : List SocketEvent} (reached : Machine.run (StreamServer.step setup) s events = some t)
    (inside : i < s.connections.length) (found : t.connections[i]? = some conn') (reads : conn'.reader = true) :
    ∃ conn, s.connections[i]? = some conn ∧ conn.reader = true ∧
      ((∀ e ∈ events, speaksFor i e = false) → conn.subscriptions = conn'.subscriptions) := by
  induction events generalizing s with
  | nil =>
    cases reached
    exact ⟨conn', found, reads, fun _ => rfl⟩
  | cons e events ih =>
    obtain ⟨u, first, rest⟩ := Machine.run_cons.mp reached
    obtain ⟨between, there, read, kept⟩ := ih rest (Nat.lt_of_lt_of_le inside (step_length first))
    obtain ⟨conn, before, read', kept'⟩ := step_before first inside there read
    refine ⟨conn, before, read', fun silent => ?_⟩
    obtain ⟨now, later⟩ := List.forall_mem_cons.mp silent
    exact (kept' now).trans (kept later)

theorem run_length {events : List SocketEvent} (reached : Machine.run (StreamServer.step setup) s events = some t) :
    s.connections.length ≤ t.connections.length :=
  Machine.invariant_run (I := fun u => s.connections.length ≤ u.connections.length)
    (fun _ _ _ grown h => Nat.le_trans grown (step_length h)) (Nat.le_refl _) reached

theorem events_speakFor {message : ControlIn} {e : SocketEvent} (member : e ∈ message.events other)
    (different : i ≠ other) : speaksFor i e = false := by
  cases message with
  | subscribe topics | unsubscribe topics =>
    obtain ⟨topic, _, rfl⟩ := List.mem_map.mp member
    simp [speaksFor, different.symm]
  | replay topic lastN => cases member

end Page

/-! ### The page's side of a connection -/

def WebSocket.connection (socket : WebSocket) : Option Nat :=
  match socket.readyState with
  | .opened connection _ => some connection
  | _ => none

namespace StreamClient

variable {H : Type} {browser : Browser} {client client' : StreamClient H} {i j : Nat} {sent : List ControlIn}

/-- The connection of the socket in use, and what has been sent over it. -/
def current (client : StreamClient H) : Option (Nat × List ControlIn) :=
  match client.readyState with
  | some (.opened connection sent) => some (connection, sent)
  | _ => none

def connectionAt (client : StreamClient H) (j : Nat) : Option Nat := (client.sockets[j]?).bind WebSocket.connection

theorem isOpen_eq (client : StreamClient H) : client.isOpen = client.current.isSome := by
  unfold isOpen current
  cases client.readyState with
  | none => rfl
  | some state => cases state <;> rfl

theorem current_iff : client.current = some (i, sent) ↔
    ∃ j socket, client.ws = some j ∧ client.sockets[j]? = some socket ∧ socket.readyState = .opened i sent := by
  unfold current readyState
  constructor
  · intro opened
    split at opened
    · rename_i connection messages state
      cases opened
      obtain ⟨j, used, state⟩ := Option.bind_eq_some_iff.mp state
      obtain ⟨socket, there, same⟩ := Option.map_eq_some_iff.mp state
      exact ⟨j, socket, used, there, same⟩
    · cases opened
  · rintro ⟨j, socket, used, there, state⟩
    rw [used, Option.bind_some, there, Option.map_some, state]

theorem sockets_setState (client : StreamClient H) (j : Nat) (state : ReadyState) (k : Nat) :
    (client.setState j state).sockets[k]? =
      if k = j then (client.sockets[k]?).map fun socket => { socket with readyState := state }
      else client.sockets[k]? := by
  unfold setState
  dsimp only
  rw [List.getElem?_modify, Option.map_eq_map]
  by_cases same : k = j
  · simp [same]
  · simp [same, Ne.symm same]

theorem readyState_of_current (opened : client.current = some (i, sent)) :
    client.readyState = some (.opened i sent) := by
  obtain ⟨j, socket, used, there, state⟩ := current_iff.mp opened
  rw [readyState, used, Option.bind_some, there, Option.map_some, state]

theorem send_of_current (opened : client.current = some (i, sent)) (message : ControlIn) :
    ∃ j, client.ws = some j ∧ client.connectionAt j = some i ∧
      client.send message = client.setState j (.opened i (sent ++ [message])) := by
  obtain ⟨j, socket, used, there, state⟩ := current_iff.mp opened
  refine ⟨j, used, ?_, ?_⟩
  · rw [connectionAt, there, Option.bind_some, WebSocket.connection, state]
  · rw [send, used, readyState_of_current opened]

theorem send_of_not_open (closed : client.current = none) (message : ControlIn) : client.send message = client := by
  unfold send
  split
  · rename_i j connection messages used state
    rw [current, state] at closed
    cases closed
  · rfl

theorem send_current (client : StreamClient H) (message : ControlIn) :
    (client.send message).current = client.current.map fun (i, sent) => (i, sent ++ [message]) := by
  cases opened : client.current with
  | none => rw [send_of_not_open opened, opened, Option.map_none]
  | some used =>
    obtain ⟨i, sent⟩ := used
    obtain ⟨j, used, _, same⟩ := send_of_current opened message
    obtain ⟨_, socket, used', there, _⟩ := current_iff.mp opened
    cases used.symm.trans used'
    rw [same, Option.map_some]
    exact current_iff.mpr ⟨j, _, used, by rw [sockets_setState, if_pos rfl, there, Option.map_some], rfl⟩

theorem connectionAt_setState (client : StreamClient H) (j : Nat) (state : ReadyState) (k : Nat) :
    (client.setState j state).connectionAt k =
      if k = j then (client.sockets[k]?).bind fun _ => WebSocket.connection ⟨state, true⟩
      else client.connectionAt k := by
  unfold connectionAt
  rw [sockets_setState]
  split
  · rw [Option.bind_map]
    rfl
  · rfl

theorem send_connectionAt (client : StreamClient H) (message : ControlIn) (k : Nat) :
    (client.send message).connectionAt k = client.connectionAt k := by
  cases opened : client.current with
  | none => rw [send_of_not_open opened]
  | some used =>
    obtain ⟨i, sent⟩ := used
    obtain ⟨j, used, here, same⟩ := send_of_current opened message
    rw [same, connectionAt_setState]
    split
    · rename_i this
      rw [this, here]
      obtain ⟨_, there, _⟩ := Option.bind_eq_some_iff.mp here
      rw [there]
      rfl
    · rfl

@[simp] theorem send_topics (client : StreamClient H) (message : ControlIn) :
    (client.send message).topics = client.topics := by
  unfold send
  split <;> rfl

/-! ### Several messages -/

def sendAll (client : StreamClient H) (messages : List ControlIn) : StreamClient H := messages.foldl send client

theorem sendAll_topics (client : StreamClient H) (messages : List ControlIn) :
    (client.sendAll messages).topics = client.topics := by
  unfold sendAll
  induction messages generalizing client with
  | nil => rfl
  | cons message messages ih => rw [List.foldl_cons, ih, send_topics]

theorem sendAll_connectionAt (client : StreamClient H) (messages : List ControlIn) (j : Nat) :
    (client.sendAll messages).connectionAt j = client.connectionAt j := by
  unfold sendAll
  induction messages generalizing client with
  | nil => rfl
  | cons message messages ih => rw [List.foldl_cons, ih, send_connectionAt]

theorem sendAll_current (client : StreamClient H) (messages : List ControlIn) :
    (client.sendAll messages).current = client.current.map fun (i, sent) => (i, sent ++ messages) := by
  unfold sendAll
  induction messages generalizing client with
  | nil =>
    rw [List.foldl_nil]
    cases client.current <;> simp
  | cons message messages ih =>
    rw [List.foldl_cons, ih, send_current]
    cases client.current <;> simp

theorem onopen_eq (client : StreamClient H) : client.onopen =
    client.sendAll (client.topics.keys.flatMap fun topic => [.subscribe [topic], .replay topic 500]) := by
  unfold onopen sendAll
  rw [List.foldl_flatMap]
  rfl

/-! ### What a call of the page does -/

/-- The later client has no other open sockets, and if the messages that were sent over the one in use lead to the
keys of the map, they still do. -/
structure Follows (client client' : StreamClient H) : Prop where
  sockets : ∀ j i, client'.connectionAt j = some i → client.connectionAt j = some i
  keys : ∀ i sent', client'.current = some (i, sent') → ∃ sent, client.current = some (i, sent) ∧
    ∀ key held, ControlIn.after key sent held = (client.topics.get key).isSome →
      ControlIn.after key sent' held = (client'.topics.get key).isSome

theorem Follows.refl (client : StreamClient H) : Follows client client :=
  ⟨fun _ _ there => there, fun _ sent opened => ⟨sent, opened, fun _ _ same => same⟩⟩

theorem Follows.trans {later : StreamClient H} (first : Follows client client') (second : Follows client' later) :
    Follows client later := by
  refine ⟨fun j i there => first.sockets j i (second.sockets j i there), fun i sent' opened => ?_⟩
  obtain ⟨between, opened', step'⟩ := second.keys i sent' opened
  obtain ⟨sent, opened'', step⟩ := first.keys i between opened'
  exact ⟨sent, opened'', fun key held same => step' key held (step key held same)⟩

theorem follows_of_closed (sockets : ∀ j i, client'.connectionAt j = some i → client.connectionAt j = some i)
    (closed : client'.current = none) : Follows client client' :=
  ⟨sockets, fun _ _ opened => by rw [closed] at opened; cases opened⟩

/-- The messages do to the keys what is done to the map. -/
theorem follows_sendAll {topics : HashMap Str H} {messages : List ControlIn}
    (effect : ∀ key, ControlIn.after key messages (client.topics.get key).isSome = (topics.get key).isSome) :
    Follows client (sendAll { client with topics } messages) := by
  refine ⟨fun j i there => ?_, fun i sent' opened => ?_⟩
  · rwa [sendAll_connectionAt] at there
  · rw [sendAll_current] at opened
    obtain ⟨⟨i', sent⟩, used, same⟩ := Option.map_eq_some_iff.mp opened
    cases same
    refine ⟨sent, used, fun key held before => ?_⟩
    rw [ControlIn.after_append, before, effect, sendAll_topics]

theorem follows_openSocket (client : StreamClient H) : Follows client client.openSocket := by
  refine follows_of_closed (fun j i there => ?_) ?_
  · obtain ⟨socket, found, opened⟩ := Option.bind_eq_some_iff.mp there
    change (client.sockets ++ [(⟨.connecting, true⟩ : WebSocket)])[j]? = some socket at found
    rcases Nat.lt_or_ge j client.sockets.length with old | new
    · rw [List.getElem?_append_left old] at found
      exact Option.bind_eq_some_iff.mpr ⟨socket, found, opened⟩
    · rw [List.getElem?_append_right new] at found
      rw [List.mem_singleton.mp (List.mem_of_getElem? found)] at opened
      cases opened
  · have fresh : client.openSocket.readyState = some .connecting := by
      unfold readyState openSocket
      simp
    rw [current, fresh]

theorem follows_disconnect (client : StreamClient H) : Follows client client.disconnect := by
  unfold disconnect
  split
  · rename_i j used
    refine follows_of_closed (fun k i there => ?_) rfl
    unfold connectionAt at there ⊢
    dsimp only at there
    rw [List.getElem?_modify] at there
    obtain ⟨socket, found, opened⟩ := Option.bind_eq_some_iff.mp there
    obtain ⟨before, was, same⟩ := Option.map_eq_some_iff.mp found
    split at same
    · rw [← same] at opened
      cases opened
    · exact Option.bind_eq_some_iff.mpr ⟨before, was, same ▸ opened⟩
  · exact .refl client

theorem follows_disconnectIf (client : StreamClient H) (p : Prop) [Decidable p] :
    Follows client (if p then client.disconnect else client) := by
  split
  · exact follows_disconnect client
  · exact .refl client

theorem follows_of_not_open (closed : client.isOpen = false) (topics : HashMap Str H) :
    Follows client { client with topics } := by
  rw [isOpen_eq, Option.isSome_eq_false_iff, Option.isNone_iff_eq_none] at closed
  exact follows_of_closed (fun _ _ there => there) closed

/-- After a change of the map an open socket is sent the messages. -/
theorem follows_notice (topics : HashMap Str H) (messages : List ControlIn)
    (effect : ∀ key, ControlIn.after key messages (client.topics.get key).isSome = (topics.get key).isSome) :
    Follows client (if client.isOpen then sendAll { client with topics } messages else { client with topics }) := by
  split
  · exact follows_sendAll effect
  · rename_i closed
    exact follows_of_not_open (Bool.not_eq_true _ ▸ closed) topics

/-- After a change of the map an open socket is sent the messages, and if there is no socket one is opened. -/
theorem follows_request {topics : HashMap Str H} (messages : List ControlIn)
    (effect : ∀ key, ControlIn.after key messages (client.topics.get key).isSome = (topics.get key).isSome) :
    Follows client (if client.isOpen then sendAll { client with topics } messages
      else if client.ws.isNone then openSocket { client with topics } else { client with topics }) := by
  split
  · exact follows_sendAll effect
  · rename_i closed
    have changed := follows_of_not_open (Bool.not_eq_true _ ▸ closed) topics
    split
    · exact changed.trans (follows_openSocket _)
    · exact changed

theorem isSome_insert (topics : HashMap Str H) (topic key : Str) (handlers : H) :
    (HashMap.get (topics.insert topic handlers) key).isSome = ((topics.get key).isSome || [topic].contains key) := by
  by_cases same : key = topic
  · subst same
    simp
  · rw [HashMap.get_insert_ne _ _ same]
    simp [same]

theorem isSome_erase (topics : HashMap Str H) (topic key : Str) :
    (HashMap.get (topics.erase topic) key).isSome = ((topics.get key).isSome && !([topic].contains key)) := by
  rw [HashMap.get_erase]
  by_cases same : key = topic <;> simp [same]

theorem follows_addTopic (client : StreamClient H) (topic : Str) (handlers : H) :
    Follows client (client.addTopic browser topic handlers) := by
  unfold addTopic
  dsimp only
  generalize browser.normalizeTopic topic = key
  split
  · exact .refl client
  · exact follows_request [.subscribe [key], .replay key 500] fun other => (isSome_insert ..).symm

theorem follows_removeTopic (client : StreamClient H) (topic : Str) (disconnectIfEmpty : Bool) :
    Follows client (client.removeTopic browser topic disconnectIfEmpty) := by
  unfold removeTopic
  dsimp only
  generalize browser.normalizeTopic topic = key
  split
  · exact .refl client
  · have erased := follows_notice (client.topics.erase key) [.unsubscribe [key]] fun other =>
      (isSome_erase ..).symm
    exact erased.trans (follows_disconnectIf _ _)

theorem follows_updateTopic (client : StreamClient H) (oldTopic newTopic : Str) (handlers : H) :
    Follows client (client.updateTopic browser oldTopic newTopic handlers) := by
  unfold updateTopic
  dsimp only
  generalize browser.normalizeTopic oldTopic = oldKey
  generalize browser.normalizeTopic newTopic = newKey
  split
  · exact .refl client
  · by_cases moves : oldKey ≠ [] ∧ oldKey ≠ newKey
    · simp only [if_pos moves]
      refine follows_request [.unsubscribe [oldKey], .subscribe [newKey], .replay newKey 500] fun other => ?_
      rw [isSome_insert, isSome_erase]
      rfl
    · simp only [if_neg moves]
      exact follows_request [.subscribe [newKey], .replay newKey 500] fun other => (isSome_insert ..).symm

theorem follows_closing (client : StreamClient H) (j : Nat) : Follows client (client.setState j .closed) := by
  refine ⟨fun k i there => ?_, fun i sent' opened => ⟨sent', ?_, fun _ _ same => same⟩⟩
  · rw [connectionAt_setState] at there
    split at there
    · obtain ⟨_, _, closed⟩ := Option.bind_eq_some_iff.mp there
      cases closed
    · exact there
  · obtain ⟨k, socket, used, there, state⟩ := current_iff.mp opened
    rw [sockets_setState] at there
    split at there
    · obtain ⟨_, _, rfl⟩ := Option.map_eq_some_iff.mp there
      cases state
    · exact current_iff.mpr ⟨k, socket, used, there, state⟩

theorem follows_onclose (client : StreamClient H) (j : Nat) :
    Follows client { client with sockets := client.sockets.set j ⟨.closed, false⟩, ws := none } := by
  refine follows_of_closed (fun k i there => ?_) rfl
  unfold connectionAt at there ⊢
  dsimp only at there
  rw [List.getElem?_set] at there
  split at there
  · split at there <;> cases there
  · exact there

end StreamClient

/-! ### The page and the server -/

namespace Page

variable {F H : Type} {browser : Browser} {setup : StreamSetup F} {s t : Page F H} {server : StreamServer F}
  {client : StreamClient (Registration H)} {wanted : HashMap Str H} {i j : Nat} {sent : List ControlIn}

structure Subscribed (s : Page F H) : Prop where
  known : ∀ j i, s.client.connectionAt j = some i → i < s.server.connections.length
  apart : ∀ j k i, s.client.connectionAt j = some i → s.client.connectionAt k = some i → j = k
  keys : ∀ i sent conn, s.client.current = some (i, sent) → s.server.connections[i]? = some conn →
    conn.reader = true → ∀ key,
      ControlIn.after key sent (conn.subscriptions.get key).isSome = (s.client.topics.get key).isSome

theorem Subscribed.follow (subscribed : Subscribed s) (follows : s.client.Follows client) (wanted : HashMap Str H) :
    Subscribed ⟨client, s.server, wanted⟩ := by
  refine ⟨fun j i there => subscribed.known j i (follows.sockets j i there), fun j k i first second =>
    subscribed.apart j k i (follows.sockets j i first) (follows.sockets k i second),
    fun i sent' conn opened found reads key => ?_⟩
  obtain ⟨sent, before, step⟩ := follows.keys i sent' opened
  exact step key _ (subscribed.keys i sent conn before found reads key)

theorem connectionAt_of_current (opened : s.client.current = some (i, sent)) :
    ∃ j, s.client.ws = some j ∧ s.client.connectionAt j = some i := by
  obtain ⟨j, socket, used, there, state⟩ := StreamClient.current_iff.mp opened
  exact ⟨j, used, by rw [StreamClient.connectionAt, there, Option.bind_some, WebSocket.connection, state]⟩

theorem opening_connectionAt {onclose : Bool} (connecting : s.client.sockets[j]? = some ⟨.connecting, onclose⟩)
    (i k : Nat) : (s.client.setState j (.opened i [])).connectionAt k =
      if k = j then some i else s.client.connectionAt k := by
  rw [StreamClient.connectionAt_setState]
  split
  · rename_i here
    rw [here, connecting]
    rfl
  · rfl

/-- Before it asks for anything, the socket in use holds what the map has, or nothing where it is new. -/
theorem opening_keys (subscribed : Subscribed s)
    (opened : (s.client.setState j (.opened s.server.connections.length [])).current = some (i, sent))
    {conn : Connection} (found : (s.server.connections ++ [.new])[i]? = some conn) (reads : conn.reader = true)
    (key : Str) : ControlIn.after key sent (conn.subscriptions.get key).isSome = true →
      (s.client.topics.get key).isSome = true := by
  obtain ⟨k, socket, used, there, state⟩ := StreamClient.current_iff.mp opened
  rw [StreamClient.sockets_setState] at there
  split at there
  · obtain ⟨_, _, rfl⟩ := Option.map_eq_some_iff.mp there
    cases state
    rw [List.getElem?_append_right (Nat.le_refl _), Nat.sub_self] at found
    cases found
    intro held
    cases held
  · have current : s.client.current = some (i, sent) :=
      StreamClient.current_iff.mpr ⟨k, socket, used, there, state⟩
    obtain ⟨_, _, place⟩ := connectionAt_of_current current
    rw [List.getElem?_append_left (subscribed.known _ i place)] at found
    rw [subscribed.keys i sent conn current found reads key]
    exact id

theorem onopen_subscribed (subscribed : Subscribed s) {onclose : Bool}
    (connecting : s.client.sockets[j]? = some ⟨.connecting, onclose⟩) :
    Subscribed ⟨(s.client.setState j (.opened s.server.connections.length [])).onopen,
      { s.server with connections := s.server.connections ++ [.new] }, wanted⟩ := by
  rw [StreamClient.onopen_eq]
  refine ⟨fun k i there => ?_, fun k l i first second => ?_, fun i sent' conn opened found reads key => ?_⟩
  · rw [StreamClient.sendAll_connectionAt, opening_connectionAt connecting] at there
    dsimp only
    rw [List.length_append, List.length_singleton]
    split at there
    · cases there
      exact Nat.lt_succ_self _
    · exact Nat.lt_succ_of_lt (subscribed.known k i there)
  · rw [StreamClient.sendAll_connectionAt, opening_connectionAt connecting] at first second
    split at first <;> split at second
    · rename_i here here'
      exact here.trans here'.symm
    · cases first
      exact absurd (subscribed.known l _ second) (Nat.lt_irrefl _)
    · cases second
      exact absurd (subscribed.known k _ first) (Nat.lt_irrefl _)
    · exact subscribed.apart k l i first second
  · rw [StreamClient.sendAll_current] at opened
    obtain ⟨⟨i', sent⟩, before, same⟩ := Option.map_eq_some_iff.mp opened
    cases same
    have kept := opening_keys subscribed before found reads key
    have listed : s.client.topics.keys.contains key = (s.client.topics.get key).isSome := by
      rw [Bool.eq_iff_iff, List.contains_iff_mem, ← AList.mem_keys, HashMap.get, AList.lookup_isSome]
    rw [ControlIn.after_append, ControlIn.after_requests, StreamClient.sendAll_topics]
    change (_ || s.client.topics.keys.contains key) = (s.client.topics.get key).isSome
    rw [listed, Bool.or_eq_right_iff_imp]
    exact kept

theorem control_subscribed (subscribed : Subscribed s) {message : ControlIn} {onclose : Bool}
    (there : s.client.sockets[j]? = some ⟨.opened i (message :: sent), onclose⟩)
    (reached : Machine.run (StreamServer.step setup) s.server (message.events i) = some server) :
    Subscribed ⟨s.client.setState j (.opened i sent), server, wanted⟩ := by
  have here : s.client.connectionAt j = some i := by
    rw [StreamClient.connectionAt, there]
    rfl
  have places : ∀ k, (s.client.setState j (.opened i sent)).connectionAt k = s.client.connectionAt k := by
    intro k
    rw [StreamClient.connectionAt_setState]
    split
    · rename_i same
      rw [same, there, here]
      rfl
    · rfl
  refine ⟨fun k i' at_ => ?_, fun k l i' first second => ?_, fun i' sent' conn' opened found reads key => ?_⟩
  · rw [places] at at_
    exact Nat.lt_of_lt_of_le (subscribed.known k i' at_) (run_length reached)
  · rw [places] at first second
    exact subscribed.apart k l i' first second
  · obtain ⟨k, socket, used, now, state⟩ := StreamClient.current_iff.mp opened
    rw [StreamClient.sockets_setState] at now
    split at now
    · rename_i same
      obtain ⟨_, _, rfl⟩ := Option.map_eq_some_iff.mp now
      cases state
      have current : s.client.current = some (i, message :: sent) :=
        StreamClient.current_iff.mpr ⟨k, _, used, same ▸ there, rfl⟩
      obtain ⟨conn, before, read, _⟩ := run_before reached (subscribed.known j i here) found reads
      obtain ⟨after, found', _, effect⟩ := (handled_message before read reached).found before
      cases found.symm.trans found'
      rw [effect]
      exact subscribed.keys i (message :: sent) conn current before read key
    · rename_i different
      have current : s.client.current = some (i', sent') :=
        StreamClient.current_iff.mpr ⟨k, socket, used, now, state⟩
      obtain ⟨k', used', place⟩ := connectionAt_of_current current
      cases used.symm.trans used'
      have other : i' ≠ i := by
        rintro rfl
        exact different (subscribed.apart k j i' place here)
      obtain ⟨conn, before, read, kept⟩ := run_before reached (subscribed.known k i' place) found reads
      rw [← kept fun e member => events_speakFor member other]
      exact subscribed.keys i' sent' conn current before read key

theorem server_subscribed (subscribed : Subscribed s) {e : SocketEvent}
    (left : s.client.sockets.all (WebSocket.mayBeLeft e) = true)
    (h : StreamServer.step setup s.server e = some server) : Subscribed ⟨s.client, server, wanted⟩ := by
  refine ⟨fun k i at_ => Nat.lt_of_lt_of_le (subscribed.known k i at_) (step_length h), subscribed.apart,
    fun i sent conn' opened found reads key => ?_⟩
  obtain ⟨k, socket, used, there, state⟩ := StreamClient.current_iff.mp opened
  obtain ⟨_, _, place⟩ := connectionAt_of_current opened
  have silent : speaksFor i e = false := by
    have mine := List.all_eq_true.mp left socket (List.mem_of_getElem? there)
    rw [WebSocket.mayBeLeft, state] at mine
    simpa using mine
  obtain ⟨conn, before, read, kept⟩ := step_before h (subscribed.known _ i place) found reads
  rw [← kept silent]
  exact subscribed.keys i sent conn opened before read key

theorem subscribed_start (onGlobalRow : Bool) : Subscribed (start onGlobalRow : Page F H) := by
  have nowhere : ∀ {j i}, ¬ (start onGlobalRow : Page F H).client.connectionAt j = some i := nofun
  exact ⟨fun _ _ at_ => (nowhere at_).elim, fun _ _ _ at_ => (nowhere at_).elim, nofun⟩

theorem Subscribed.step {e : PageEvent H} (subscribed : Subscribed s) (h : s.step browser setup e = some t) :
    Subscribed t := by
  obtain ⟨acts, _⟩ := step_acts browser setup h
  obtain ⟨client, server, wanted⟩ := t
  dsimp only at acts
  cases acts with
  | addTopic symbol handlers => exact subscribed.follow (StreamClient.follows_addTopic s.client symbol _) wanted
  | updateTopic old new handlers =>
    exact subscribed.follow (StreamClient.follows_updateTopic s.client old new _) wanted
  | removeTopic symbol disconnectIfEmpty =>
    exact subscribed.follow (StreamClient.follows_removeTopic s.client symbol disconnectIfEmpty) wanted
  | disconnect => exact subscribed.follow (StreamClient.follows_disconnect s.client) wanted
  | onopen connecting => exact onopen_subscribed subscribed connecting
  | @closing j _ there alive => exact subscribed.follow (StreamClient.follows_closing s.client j) wanted
  | @onclose j closed => exact subscribed.follow (StreamClient.follows_onclose s.client j) wanted
  | reconnect => exact subscribed.follow (StreamClient.follows_openSocket s.client) wanted
  | control there handled => exact control_subscribed subscribed there handled
  | server left stepped => exact server_subscribed subscribed left stepped

theorem attached_step {e : PageEvent H} (attached : s.server.Attached) (h : s.step browser setup e = some t) :
    t.server.Attached := by
  obtain ⟨acts, _⟩ := step_acts browser setup h
  obtain ⟨client, server, wanted⟩ := t
  dsimp only at acts ⊢
  cases acts with
  | onopen connecting =>
    have connected : s.server.step setup .connect =
        some { s.server with connections := s.server.connections ++ [.new] } := rfl
    exact attached.step connected
  | control there handled =>
    exact Machine.invariant_run (fun _ _ _ kept h => StreamServer.Attached.step kept h) attached handled
  | server left stepped => exact attached.step stepped
  | _ => exact attached

end Page
end QuestRouter.Stream.Web
