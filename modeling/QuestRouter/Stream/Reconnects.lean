import QuestRouter.Stream.SymbolTicks

/-!
# Reconnects

When a socket of the page closes, its client sets a timer and opens another one as the timer fires. The client looks
neither for a timer when it opens a socket nor for a socket when a timer fires.
-/

namespace QuestRouter.Stream.Web
open Text Data

namespace StreamClient

variable {H : Type} (browser : Browser) {client client' : StreamClient H} {i j : Nat}

/-- Which sockets still have their `onclose`. -/
def listening (client : StreamClient H) : List Bool := client.sockets.map WebSocket.onclose

/-- A socket that is not closed has its `onclose`. -/
def Heard (client : StreamClient H) : Prop :=
  ∀ (j : Nat) (socket : WebSocket), client.sockets[j]? = some socket → socket.readyState ≠ .closed →
    socket.onclose = true

theorem listening_eq : client.listening[j]? = (client.sockets[j]?).map WebSocket.onclose := List.getElem?_map

/-! ### Messages and states -/

theorem setState_listening (j : Nat) (state : ReadyState) : (client.setState j state).listening = client.listening := by
  apply List.ext_getElem?
  intro k
  rw [listening_eq, listening_eq, sockets_setState]
  split
  · rw [Option.map_map]
    rfl
  · rfl

theorem Heard.setState (heard : client.Heard) {state : ReadyState}
    (alive : state ≠ .closed → ∃ socket, client.sockets[j]? = some socket ∧ socket.readyState ≠ .closed) :
    (client.setState j state).Heard := by
  intro k socket there open'
  rw [sockets_setState] at there
  split at there
  · rename_i same
    subst same
    obtain ⟨before, found, rfl⟩ := Option.map_eq_some_iff.mp there
    obtain ⟨socket, found', was⟩ := alive open'
    cases found.symm.trans found'
    exact heard k before found was
  · exact heard k socket there open'

theorem send_ws (message : ControlIn) : (client.send message).ws = client.ws := by
  unfold send
  split <;> rfl

theorem send_listening (message : ControlIn) : (client.send message).listening = client.listening := by
  unfold send
  split
  · exact setState_listening _ _
  · rfl

theorem Heard.send (heard : client.Heard) (message : ControlIn) : (client.send message).Heard := by
  cases opened : client.current with
  | none => rwa [send_of_not_open opened]
  | some used =>
    obtain ⟨i, sent⟩ := used
    obtain ⟨k, socket, used, there, state⟩ := current_iff.mp opened
    obtain ⟨k', used', _, same⟩ := send_of_current opened message
    cases used.symm.trans used'
    rw [same]
    apply heard.setState
    intro _
    exact ⟨socket, there, by rw [state]; exact nofun⟩

/-! ### What a call does to the sockets -/

/-- The sockets and the one in use are left as they are, but for what is sent. -/
structure Keeps (client client' : StreamClient H) : Prop where
  ws : client'.ws = client.ws
  listening : client'.listening = client.listening
  heard : client.Heard → client'.Heard

theorem Keeps.refl (client : StreamClient H) : Keeps client client := ⟨rfl, rfl, id⟩

theorem Keeps.trans {later : StreamClient H} (first : Keeps client client') (second : Keeps client' later) :
    Keeps client later :=
  ⟨second.ws.trans first.ws, second.listening.trans first.listening, fun heard => second.heard (first.heard heard)⟩

theorem keeps_topics (client : StreamClient H) (topics : HashMap Str H) :
    Keeps client { client with topics := topics } := ⟨rfl, rfl, id⟩

theorem keeps_send (client : StreamClient H) (message : ControlIn) : Keeps client (client.send message) :=
  ⟨send_ws message, send_listening message, fun heard => heard.send message⟩

theorem keeps_sendAll (client : StreamClient H) (messages : List ControlIn) : Keeps client (client.sendAll messages) := by
  unfold sendAll
  induction messages generalizing client with
  | nil => exact .refl client
  | cons message messages ih => exact (keeps_send client message).trans (ih (client.send message))

theorem keeps_setState (there : ∃ socket, client.sockets[j]? = some socket ∧ socket.readyState ≠ .closed)
    (state : ReadyState) : Keeps client (client.setState j state) :=
  ⟨rfl, setState_listening j state, fun heard => heard.setState fun _ => there⟩

/-- What setting the handlers of a topic does to the sockets. -/
inductive Sets (client client' : StreamClient H) (key : Str) : Prop
  | nothing (empty : key = []) (same : client' = client)
  | used (used : client.ws ≠ none) (keeps : Keeps client client')
  | opens (given : key ≠ []) (unused : client.ws = none) (topics : HashMap Str H)
      (same : client' = openSocket { client with topics := topics })

theorem isOpen_of_unused (unused : client.ws = none) : client.isOpen = false := by
  rw [isOpen, readyState, unused]
  rfl

/-- The messages of a call are sent over a socket that is open, one is opened where none is in use. -/
theorem sets_of_given {key : Str} (given : key ≠ []) (topics : HashMap Str H) (messages : List ControlIn) :
    Sets client
      (if isOpen { client with topics := topics } then sendAll { client with topics := topics } messages
       else if ({ client with topics := topics } : StreamClient H).ws.isNone then
         openSocket { client with topics := topics }
       else { client with topics := topics }) key := by
  by_cases unused : client.ws = none
  · have closed : isOpen { client with topics := topics } = false := isOpen_of_unused unused
    rw [closed, if_neg nofun, if_pos (by rw [unused]; rfl)]
    exact .opens given unused topics rfl
  · split
    · exact .used unused ((keeps_topics client topics).trans (keeps_sendAll _ messages))
    · rw [if_neg (by simp [unused])]
      exact .used unused (keeps_topics client topics)

theorem sets_addTopic (client : StreamClient H) (topic : Str) (handlers : H) :
    Sets client (client.addTopic browser topic handlers) (browser.normalizeTopic topic) := by
  unfold addTopic
  dsimp only
  split
  · rename_i empty
    exact .nothing empty rfl
  · rename_i given
    exact sets_of_given given _ [.subscribe [_], .replay _ 500]

theorem sets_updateTopic (client : StreamClient H) (oldTopic newTopic : Str) (handlers : H) :
    Sets client (client.updateTopic browser oldTopic newTopic handlers) (browser.normalizeTopic newTopic) := by
  unfold updateTopic
  dsimp only
  split
  · rename_i empty
    exact .nothing empty rfl
  · rename_i given
    split
    · exact sets_of_given given _ [.unsubscribe [_], .subscribe [_], .replay _ 500]
    · exact sets_of_given given _ [.subscribe [_], .replay _ 500]

/-! ### Sockets that come and go -/

/-- Every socket that is not closed can still be heard, as can the one in use. -/
structure Tended (client : StreamClient H) : Prop where
  heard : client.Heard
  used : ∀ j, client.ws = some j → client.listening[j]? = some true

/-- Only the socket in use can be heard. -/
def Only (client : StreamClient H) : Prop := ∀ j, client.listening[j]? = some true → client.ws = some j

theorem Keeps.tended (keeps : Keeps client client') (tended : client.Tended) : client'.Tended :=
  ⟨keeps.heard tended.heard, by rw [keeps.ws, keeps.listening]; exact tended.used⟩

theorem Keeps.only (keeps : Keeps client client') (only : client.Only) : client'.Only := by
  unfold Only
  rw [keeps.ws, keeps.listening]
  exact only

theorem openSocket_listening (client : StreamClient H) : client.openSocket.listening = client.listening ++ [true] :=
  List.map_append

theorem openSocket_tended (tended : client.Tended) : client.openSocket.Tended := by
  constructor
  · intro j socket there open'
    change (client.sockets ++ [⟨.connecting, true⟩])[j]? = some socket at there
    rw [List.getElem?_append] at there
    split at there
    · exact tended.heard j socket there open'
    · obtain rfl := List.mem_singleton.mp (List.mem_of_getElem? there)
      rfl
  · intro j used
    obtain rfl : client.sockets.length = j := Option.some.inj used
    rw [openSocket_listening, ← client.sockets.length_map WebSocket.onclose]
    exact List.getElem?_concat_length

theorem openSocket_only (only : client.Only) (unused : client.ws = none) : client.openSocket.Only := by
  intro j heard
  rw [openSocket_listening, List.getElem?_append] at heard
  split at heard
  · have used := only j heard
    rw [unused] at used
    cases used
  · rename_i outside
    have size : client.listening.length = client.sockets.length := List.length_map _
    have small : j - client.listening.length < [true].length := (List.getElem?_eq_some_iff.mp heard).1
    rw [List.length_singleton] at small
    exact congrArg some (by omega)

theorem disconnect_ws (client : StreamClient H) : client.disconnect.ws = none := by
  unfold disconnect
  split
  · rfl
  · assumption

theorem disconnect_sockets (client : StreamClient H) (k : Nat) :
    client.disconnect.sockets[k]? =
      if client.ws = some k then (client.sockets[k]?).map fun _ => ⟨.closed, false⟩ else client.sockets[k]? := by
  unfold disconnect
  split
  · rename_i j used
    dsimp only
    rw [List.getElem?_modify, Option.map_eq_map, used]
    by_cases same : j = k
    · simp [same]
    · simp [same]
  · rename_i unused
    rw [unused, if_neg nofun]

theorem disconnect_tended (tended : client.Tended) : client.disconnect.Tended := by
  constructor
  · intro j socket there open'
    rw [disconnect_sockets] at there
    split at there
    · obtain ⟨_, _, rfl⟩ := Option.map_eq_some_iff.mp there
      exact absurd rfl open'
    · exact tended.heard j socket there open'
  · intro j used
    rw [disconnect_ws] at used
    cases used

theorem disconnect_only (only : client.Only) : client.disconnect.Only := by
  intro j heard
  rw [listening_eq, disconnect_sockets] at heard
  split at heard
  · rw [Option.map_map] at heard
    obtain ⟨_, _, different⟩ := Option.map_eq_some_iff.mp heard
    cases different
  · rename_i other
    rw [← listening_eq] at heard
    exact absurd (only j heard) other

/-- What `onclose` leaves of the client. -/
def lose (client : StreamClient H) (j : Nat) : StreamClient H :=
  { client with sockets := client.sockets.set j ⟨.closed, false⟩, ws := none }

theorem lose_tended (tended : client.Tended) (closed : client.sockets[j]? = some ⟨.closed, true⟩) :
    (client.lose j).Tended := by
  constructor
  · intro k socket there open'
    change (client.sockets.set j ⟨.closed, false⟩)[k]? = some socket at there
    rw [Machine.getElem?_replaced closed] at there
    split at there
    · cases there
      exact absurd rfl open'
    · exact tended.heard k socket there open'
  · exact nofun

theorem lose_only (only : client.Only) (closed : client.sockets[j]? = some ⟨.closed, true⟩) :
    (client.lose j).Only := by
  intro k heard
  have used : client.ws = some j := only j (by rw [listening_eq, closed]; rfl)
  rw [listening_eq] at heard
  change ((client.sockets.set j ⟨.closed, false⟩)[k]?).map WebSocket.onclose = some true at heard
  rw [Machine.getElem?_replaced closed] at heard
  split at heard
  · cases heard
  · rename_i other
    rw [← listening_eq] at heard
    have used' := only k heard
    rw [used] at used'
    exact absurd (Option.some.inj used').symm other

end StreamClient

/-! ### Timers -/

/-- A page whose client keeps timers; `timers` have neither fired nor been cleared, of `made` that were set. -/
structure Timed (F H : Type) where
  page : Page F H
  shouldReconnect : Bool
  timers : List Nat
  reconnectTimer : Option Nat
  made : Nat

inductive TimedEvent (H : Type) where
  | page (e : PageEvent H)
  | fire (timer : Nat)

def TimedEvent.pageEvent {H : Type} : TimedEvent H → PageEvent H
  | .page e => e
  | .fire _ => .reconnect

/-- The browser, the network and the server; the page asks for nothing. -/
def TimedEvent.isOutside {H : Type} : TimedEvent H → Bool
  | .page (.onopen _) | .page (.closing _) | .page (.onclose _) | .page (.control _) | .fire _ => true
  | _ => false

namespace Timed

variable {F H : Type} (browser : Browser) (setup : StreamSetup F)

def start (onGlobalRow : Bool) : Timed F H := ⟨.start onGlobalRow, false, [], none, 0⟩

def setTimer (s : Timed F H) : Timed F H :=
  { s with timers := s.timers ++ [s.made], reconnectTimer := some s.made, made := s.made + 1 }

/-- What `disconnect` does beside closing the socket. -/
def stop (s : Timed F H) : Timed F H :=
  { s with
    shouldReconnect := false
    timers := match s.reconnectTimer with
      | some timer => s.timers.erase timer
      | none => s.timers
    reconnectTimer := none }

/-- The flag and the timers after an event of the page. -/
def schedule (s : Timed F H) : PageEvent H → Timed F H
  | .addTopic topic _ | .updateTopic _ topic _ =>
    if browser.normalizeTopic topic ≠ [] ∧ s.page.client.ws = none then { s with shouldReconnect := true } else s
  | .removeTopic topic disconnectIfEmpty =>
    let key := browser.normalizeTopic topic
    if key ≠ [] ∧ disconnectIfEmpty ∧ (s.page.client.topics.erase key).keys = [] then s.stop else s
  | .disconnect => s.stop
  | .onclose _ => if s.shouldReconnect ∧ s.page.client.topics.keys ≠ [] then s.setTimer else s
  | _ => s

def step (s : Timed F H) : TimedEvent H → Option (Timed F H)
  -- a socket is opened by a call or by a timer that fires
  | .page .reconnect => none
  | .page e => (s.page.step browser setup e).map fun page => { s.schedule browser e with page := page }
  | .fire timer =>
    if timer ∈ s.timers then
      (s.page.step browser setup .reconnect).map fun page => { s with page := page, timers := s.timers.erase timer }
    else none

variable {browser setup} {s t : Timed F H}

/-! ### What a step does -/

/-- No topic is set while a timer is to open the socket. -/
def Waits (browser : Browser) (s : Timed F H) : TimedEvent H → Prop
  | .page (.addTopic topic _) | .page (.updateTopic _ topic _) =>
    browser.normalizeTopic topic ≠ [] → s.page.client.ws = none → s.timers = []
  | _ => True

/-- The new state of the client, of the flag and of the timers; `waits` says when the event waits for the timers. -/
inductive Turns (s : Timed F H) (waits : Prop) : StreamClient (Registration H) → Timed F H → Prop
  | keeps {client : StreamClient (Registration H)} (free : waits) (keeps : s.page.client.Keeps client)
      (topics : client.ws ≠ none ∨ (client.topics.keys ≠ [] → s.page.client.topics.keys ≠ [])) : Turns s waits client s
  | opens (bound : waits ↔ s.timers = []) (unused : s.page.client.ws = none)
      (topics : HashMap Str (Registration H)) :
      Turns s waits (StreamClient.openSocket { s.page.client with topics := topics })
        { s with shouldReconnect := true }
  | drops {client : StreamClient (Registration H)} (free : waits) (keeps : s.page.client.Keeps client) :
      Turns s waits client.disconnect s.stop
  | loses {j : Nat} (free : waits) (closed : s.page.client.sockets[j]? = some ⟨.closed, true⟩) :
      Turns s waits (s.page.client.lose j)
        (if s.shouldReconnect ∧ s.page.client.topics.keys ≠ [] then s.setTimer else s)
  | fires {timer : Nat} (free : waits) (pending : timer ∈ s.timers) :
      Turns s waits s.page.client.openSocket { s with timers := s.timers.erase timer }

theorem sets_turns {client : StreamClient (Registration H)} {key : Str} (sets : s.page.client.Sets client key) :
    Turns s (key ≠ [] → s.page.client.ws = none → s.timers = []) client
      (if key ≠ [] ∧ s.page.client.ws = none then { s with shouldReconnect := true } else s) := by
  cases sets with
  | nothing empty same =>
    subst same
    rw [if_neg fun both => both.1 empty]
    exact .keeps (fun given => absurd empty given) (.refl _) (.inr id)
  | used used keeps =>
    rw [if_neg fun both => used both.2]
    exact .keeps (fun _ unused => absurd unused used) keeps (.inl (by rwa [keeps.ws]))
  | opens given unused topics same =>
    subst same
    rw [if_pos ⟨given, unused⟩]
    exact .opens ⟨fun waits => waits given unused, fun quiet _ _ => quiet⟩ unused topics

theorem keys_of_erase {topics : HashMap Str H} {key : Str} (left : (topics.erase key).keys ≠ []) :
    topics.keys ≠ [] := by
  intro none
  apply left
  apply List.eq_nil_iff_forall_not_mem.mpr
  intro other member
  have held : other ∈ (topics.erase key).keys := member
  rw [← AList.mem_keys, AList.mem_erase, AList.mem_keys, none] at held
  exact List.not_mem_nil held.2

theorem removes_turns (topic : Str) (disconnectIfEmpty : Bool) :
    Turns s True (s.page.client.removeTopic browser topic disconnectIfEmpty)
      (s.schedule browser (.removeTopic topic disconnectIfEmpty)) := by
  unfold StreamClient.removeTopic schedule
  dsimp only
  by_cases empty : browser.normalizeTopic topic = []
  · rw [if_pos empty, if_neg fun all => all.1 empty]
    exact .keeps trivial (.refl _) (.inr id)
  · let client : StreamClient (Registration H) :=
      { s.page.client with topics := s.page.client.topics.erase (browser.normalizeTopic topic) }
    have told : ∃ client', client' = (if client.isOpen then client.send (.unsubscribe [browser.normalizeTopic topic])
        else client) ∧ s.page.client.Keeps client' ∧ client'.topics = client.topics := by
      refine ⟨_, rfl, ?_⟩
      split
      · exact ⟨(StreamClient.keeps_topics _ _).trans (StreamClient.keeps_send client _), StreamClient.send_topics _ _⟩
      · exact ⟨StreamClient.keeps_topics _ _, rfl⟩
    obtain ⟨client', same, keeps, topics⟩ := told
    rw [if_neg empty, ← same, topics]
    split
    · rename_i goes
      rw [if_pos ⟨empty, goes⟩]
      exact .drops trivial keeps
    · rename_i stays
      rw [if_neg fun all => stays all.2]
      apply Turns.keeps trivial keeps
      rw [topics]
      exact .inr keys_of_erase

theorem page_turns {e : PageEvent H} {client : StreamClient (Registration H)} {server : StreamServer F}
    (acts : Page.Acts browser setup s.page e client server) (asked : e ≠ .reconnect) :
    Turns s (Waits browser s (.page e)) client (s.schedule browser e) := by
  cases acts with
  | addTopic symbol handlers => exact sets_turns (StreamClient.sets_addTopic browser _ symbol _)
  | updateTopic old new handlers => exact sets_turns (StreamClient.sets_updateTopic browser _ old new _)
  | removeTopic symbol disconnectIfEmpty => exact removes_turns symbol disconnectIfEmpty
  | disconnect => exact .drops trivial (.refl _)
  | @onopen j _ connecting =>
    have opened := StreamClient.keeps_setState ⟨_, connecting, nofun⟩ (.opened s.page.server.connections.length [])
    rw [StreamClient.onopen_eq]
    apply Turns.keeps trivial (opened.trans (StreamClient.keeps_sendAll _ _))
    rw [StreamClient.sendAll_topics]
    exact .inr id
  | closing there alive =>
    exact .keeps trivial (StreamClient.keeps_setState ⟨_, there, alive⟩ _) (.inr id)
  | onclose closed => exact .loses trivial closed
  | reconnect => exact absurd rfl asked
  | control there handled =>
    exact .keeps trivial (StreamClient.keeps_setState ⟨_, there, nofun⟩ _) (.inr id)
  | server left stepped => exact .keeps trivial (.refl _) (.inr id)

/-- The page's own step, and what becomes of the flag and the timers. -/
inductive Does (browser : Browser) (setup : StreamSetup F) (s : Timed F H) : TimedEvent H → Timed F H → Prop
  | page {e : PageEvent H} {page : Page F H} (called : e ≠ .reconnect)
      (stepped : s.page.step browser setup e = some page) :
      Does browser setup s (.page e) { s.schedule browser e with page := page }
  | fire {timer : Nat} {page : Page F H} (pending : timer ∈ s.timers)
      (stepped : s.page.step browser setup .reconnect = some page) :
      Does browser setup s (.fire timer) { s with page := page, timers := s.timers.erase timer }

theorem step_called {e : PageEvent H} (called : e ≠ .reconnect) : s.step browser setup (.page e) =
    (s.page.step browser setup e).map fun page => { s.schedule browser e with page := page } := by
  cases e with
  | reconnect => exact absurd rfl called
  | _ => rfl

theorem step_does {e : TimedEvent H} (h : s.step browser setup e = some t) : Does browser setup s e t := by
  cases e with
  | page e =>
    by_cases called : e = .reconnect
    · rw [called] at h
      cases h
    · rw [step_called called] at h
      obtain ⟨page, stepped, rfl⟩ := Option.map_eq_some_iff.mp h
      exact .page called stepped
  | fire timer =>
    unfold step at h
    dsimp only at h
    split at h
    · rename_i pending
      obtain ⟨page, stepped, rfl⟩ := Option.map_eq_some_iff.mp h
      exact .fire pending stepped
    · cases h

theorem step_page {e : TimedEvent H} (h : s.step browser setup e = some t) :
    s.page.step browser setup e.pageEvent = some t.page := by
  cases step_does h with
  | page called stepped => exact stepped
  | fire pending stepped => exact stepped

/-- What the page and the server do with timers they also do where a socket may be opened at any time. -/
theorem page_run {events : List (TimedEvent H)} (reached : Machine.run (step browser setup) s events = some t) :
    Machine.run (Page.step browser setup) s.page (events.map TimedEvent.pageEvent) = some t.page := by
  induction events generalizing s with
  | nil => cases reached; rfl
  | cons e events ih =>
    obtain ⟨u, first, rest⟩ := Machine.run_cons.mp reached
    exact Machine.run_cons.mpr ⟨u.page, step_page first, ih rest⟩

theorem step_turns {e : TimedEvent H} (h : s.step browser setup e = some t) :
    ∃ u, Turns s (Waits browser s e) t.page.client u ∧ t = { u with page := t.page } := by
  cases step_does h with
  | page called stepped =>
    obtain ⟨acts, _⟩ := Page.step_acts browser setup stepped
    exact ⟨_, page_turns acts called, rfl⟩
  | @fire timer page pending stepped =>
    refine ⟨{ s with timers := s.timers.erase timer }, ?_, rfl⟩
    cases stepped
    exact .fires trivial pending

/-! ### Every run -/

/-- A client that is to reconnect has a socket of which it will hear or a timer. -/
structure Awake (s : Timed F H) : Prop where
  tended : s.page.client.Tended
  awake : s.shouldReconnect = true → s.page.client.topics.keys ≠ [] → s.page.client.ws = none → s.timers ≠ []

theorem awake_start (onGlobalRow : Bool) : Awake (start onGlobalRow : Timed F H) := ⟨⟨nofun, nofun⟩, nofun⟩

theorem Awake.step {e : TimedEvent H} (awake : Awake s) (h : s.step browser setup e = some t) : Awake t := by
  obtain ⟨u, turns, same⟩ := step_turns h
  generalize t.page = page at turns same
  subst same
  generalize client_eq : page.client = client at turns
  cases turns with
  | keeps free keeps topics =>
    refine ⟨by rw [client_eq]; exact keeps.tended awake.tended, ?_⟩
    dsimp only
    rw [client_eq, keeps.ws]
    intro flag some' unused
    rcases topics with used | kept
    · rw [keeps.ws] at used
      exact absurd unused used
    · exact awake.awake flag (kept some') unused
  | opens bound unused topics =>
    refine ⟨by rw [client_eq]; exact StreamClient.openSocket_tended ⟨awake.tended.heard, awake.tended.used⟩, ?_⟩
    dsimp only
    rw [client_eq]
    exact nofun
  | drops free keeps =>
    refine ⟨by rw [client_eq]; exact StreamClient.disconnect_tended (keeps.tended awake.tended), nofun⟩
  | loses free closed =>
    refine ⟨by rw [client_eq]; exact StreamClient.lose_tended awake.tended closed, ?_⟩
    dsimp only
    rw [client_eq]
    split
    · exact fun _ _ _ => List.append_ne_nil_of_right_ne_nil _ (List.cons_ne_nil _ _)
    · rename_i neither
      exact fun flag topics _ => absurd ⟨flag, topics⟩ neither
  | fires free pending =>
    refine ⟨by rw [client_eq]; exact StreamClient.openSocket_tended awake.tended, ?_⟩
    dsimp only
    rw [client_eq]
    exact nofun

/-! ### One socket at a time -/

/-- A socket excludes a timer, and a client that is not to reconnect has neither. -/
structure OneAtATime (s : Timed F H) : Prop where
  alive : ∀ (j : Nat) (socket : WebSocket), s.page.client.sockets[j]? = some socket → socket.readyState ≠ .closed →
    s.page.client.ws = some j
  quiet : s.page.client.ws ≠ none → s.timers = []
  stopped : s.shouldReconnect = false → s.page.client.ws = none ∧ s.timers = []

/-- What is heard comes from the socket in use, and a timer is the one that `disconnect` clears. -/
structure Ordered (s : Timed F H) : Prop extends Awake s where
  only : s.page.client.Only
  cleared : ∀ timer ∈ s.timers, s.reconnectTimer = some timer ∧ s.timers = [timer]

theorem Ordered.alive (ordered : Ordered s) {j : Nat} {socket : WebSocket}
    (there : s.page.client.sockets[j]? = some socket) (open' : socket.readyState ≠ .closed) :
    s.page.client.ws = some j := by
  apply ordered.only
  rw [StreamClient.listening_eq, there, Option.map_some, ordered.tended.heard j socket there open']

theorem Ordered.stop_timers (ordered : Ordered s) : s.stop.timers = [] := by
  unfold stop
  dsimp only
  cases pending : s.timers with
  | nil => cases s.reconnectTimer <;> rfl
  | cons timer rest =>
    obtain ⟨held, single⟩ := ordered.cleared timer (by rw [pending]; exact List.mem_cons_self)
    rw [held, ← pending, single]
    simp

/-- The parts of an ordered state that a step leaves when it waits for the timers. -/
theorem turns_ordered {waits : Prop} {client : StreamClient (Registration H)} {u : Timed F H}
    (turns : Turns s waits client u) (ordered : Ordered s) (one : OneAtATime s) (free : waits) :
    client.Only ∧ (∀ timer ∈ u.timers, u.reconnectTimer = some timer ∧ u.timers = [timer]) ∧
      (client.ws ≠ none → u.timers = []) ∧ (u.shouldReconnect = false → client.ws = none ∧ u.timers = []) := by
  have nothing : ∀ {timers : List Nat} {held : Option Nat}, timers = [] →
      ∀ timer ∈ timers, held = some timer ∧ timers = [timer] := by
    intro timers held none timer member
    rw [none] at member
    cases member
  cases turns with
  | keeps _ keeps topics =>
    rw [keeps.ws]
    exact ⟨keeps.only ordered.only, ordered.cleared, one.quiet, one.stopped⟩
  | opens bound unused topics =>
    have only : StreamClient.Only { s.page.client with topics := topics } := ordered.only
    have quiet := bound.mp free
    exact ⟨StreamClient.openSocket_only only unused, nothing quiet, fun _ => quiet, nofun⟩
  | drops _ keeps =>
    have none := ordered.stop_timers
    exact ⟨StreamClient.disconnect_only (keeps.only ordered.only), nothing none, fun _ => none,
      fun _ => ⟨StreamClient.disconnect_ws _, none⟩⟩
  | @loses j _ closed =>
    have used : s.page.client.ws = some j :=
      ordered.only j (by rw [StreamClient.listening_eq, closed]; rfl)
    have quiet : s.timers = [] := one.quiet (by rw [used]; exact nofun)
    have flag : s.shouldReconnect = true := by
      cases stopped : s.shouldReconnect with
      | true => rfl
      | false =>
        rw [(one.stopped stopped).1] at used
        cases used
    refine ⟨StreamClient.lose_only ordered.only closed, ?_, fun used' => absurd rfl used', fun stopped => ?_⟩
    · split
      · intro timer member
        change timer ∈ s.timers ++ [s.made] at member
        rw [quiet] at member
        obtain rfl := List.mem_singleton.mp member
        exact ⟨rfl, by rw [setTimer, quiet]; rfl⟩
      · exact nothing quiet
    · split at stopped <;> exact absurd (flag.symm.trans stopped) nofun
  | @fires timer _ pending =>
    have single := (ordered.cleared timer pending).2
    have unused : s.page.client.ws = none := by
      by_contra used
      rw [one.quiet used] at pending
      cases pending
    have none : s.timers.erase timer = [] := by
      rw [single]
      simp
    refine ⟨StreamClient.openSocket_only ordered.only unused, nothing none, fun _ => none, fun stopped => ?_⟩
    rw [(one.stopped stopped).2] at pending
    cases pending

theorem Ordered.step {e : TimedEvent H} (ordered : Ordered s) (one : OneAtATime s) (waits : Waits browser s e)
    (h : s.step browser setup e = some t) : Ordered t ∧ OneAtATime t := by
  have awake := ordered.toAwake.step h
  obtain ⟨u, turns, same⟩ := step_turns h
  obtain ⟨only, cleared, quiet, stopped⟩ := turns_ordered turns ordered one waits
  have next : Ordered t := ⟨awake, only, by rw [same]; exact cleared⟩
  refine ⟨next, fun j socket there open' => next.alive there open', ?_, ?_⟩
  · rw [same]
    exact quiet
  · rw [same]
    exact stopped

theorem waits_of_oneAtATime {e : TimedEvent H} (h : s.step browser setup e = some t) (one : OneAtATime t) :
    Waits browser s e := by
  obtain ⟨u, turns, same⟩ := step_turns h
  have quiet := one.quiet
  rw [same] at quiet
  generalize t.page.client = client at turns quiet
  cases turns with
  | opens bound unused topics => exact bound.mpr (quiet nofun)
  | keeps free _ _ => exact free
  | drops free _ => exact free
  | loses free _ => exact free
  | fires free _ => exact free

/-- A run has one socket at a time, and nothing is left to open one after `disconnect`, exactly when no topic is set
while the client waits for a timer. -/
theorem one_socket_iff (onGlobalRow : Bool) (events : List (TimedEvent H)) :
    Machine.Always (step browser setup) OneAtATime (start onGlobalRow : Timed F H) events ↔
      Machine.Meets (step browser setup) (Waits browser) (start onGlobalRow) events := by
  apply Machine.always_iff_meets (I := Ordered)
  · exact fun _ _ _ ordered one waits h => ordered.step one waits h
  · exact fun _ _ _ _ _ h one => waits_of_oneAtATime h one
  · exact ⟨awake_start onGlobalRow, nofun, nofun⟩
  · exact ⟨nofun, fun used => absurd rfl used, fun _ => ⟨rfl, rfl⟩⟩

/-- A topic is set while the timer is pending, and the timer opens a second socket. -/
example : ∃ s, Machine.run (step Page.asciiBrowser Page.packedTrades) (start false)
    [.page (.addTopic "btc".toList 0), .page (.onopen 0), .page (.closing 0), .page (.onclose 0),
      .page (.addTopic "eth".toList 1), .page (.onopen 1), .fire 0] = some s ∧ s.page.client.ws = some 2 ∧
    s.page.client.sockets.map (fun socket => decide (socket.readyState = .closed)) = [true, false, false] :=
  ⟨_, rfl, by decide +kernel, by decide +kernel⟩

/-! ### After a connection is lost -/

variable {server : StreamServer F} {i j : Nat} {conn : Connection} {sent : List ControlIn} {onclose : Bool}

theorem topics_handled {event : Str → SocketEvent}
    (one : ∀ (server : StreamServer F) (conn : Connection) (topic : Str), server.connections[i]? = some conn →
      conn.reader = true → ∃ next subscriptions, StreamServer.step setup server (event topic) = some next ∧
        next.connections[i]? = some { conn with subscriptions := subscriptions })
    (topics : List Str) (found : server.connections[i]? = some conn) (reads : conn.reader = true) :
    ∃ next subscriptions, Machine.run (StreamServer.step setup) server (topics.map event) = some next ∧
      next.connections[i]? = some { conn with subscriptions := subscriptions } := by
  induction topics generalizing server conn with
  | nil => exact ⟨server, conn.subscriptions, rfl, found⟩
  | cons topic topics ih =>
    obtain ⟨next, subscriptions, first, there⟩ := one server conn topic found reads
    obtain ⟨last, subscriptions', rest, there'⟩ := ih there reads
    exact ⟨last, subscriptions', Machine.run_cons.mpr ⟨next, first, rest⟩, there'⟩

/-- A reader handles every message. -/
theorem message_handled (setup : StreamSetup F) (message : ControlIn) (found : server.connections[i]? = some conn)
    (reads : conn.reader = true) :
    ∃ next subscriptions, Machine.run (StreamServer.step setup) server (message.events i) = some next ∧
      next.connections[i]? = some { conn with subscriptions := subscriptions } := by
  cases message with
  | subscribe topics =>
    refine topics_handled (fun server conn topic found reads => ?_) topics found reads
    refine ⟨server.subscribe i conn topic, conn.subscriptions.insert topic (server.hub.subscribeTopic topic).1,
      by rw [StreamServer.step, found]; exact if_pos reads, ?_⟩
    rw [StreamServer.subscribe, Machine.getElem?_replaced found, if_pos rfl]
  | unsubscribe topics =>
    refine topics_handled (fun server conn topic found reads => ?_) topics found reads
    refine ⟨server.unsubscribe i conn topic, conn.subscriptions.erase topic,
      by rw [StreamServer.step, found]; exact if_pos reads, ?_⟩
    rw [StreamServer.unsubscribe, Machine.getElem?_replaced found, if_pos rfl]
  | replay topic lastN => exact ⟨server, conn.subscriptions, rfl, found⟩

/-- A later state with the same topics, reached without the page. -/
def Comes (browser : Browser) (setup : StreamSetup F) (s t : Timed F H) : Prop :=
  ∃ events, Machine.run (step browser setup) s events = some t ∧
    (∀ e ∈ events, TimedEvent.isOutside e = true) ∧ t.page.client.topics = s.page.client.topics

theorem Comes.refl (s : Timed F H) : Comes browser setup s s := ⟨[], rfl, nofun, rfl⟩

theorem Comes.trans {u : Timed F H} (first : Comes browser setup s u) (second : Comes browser setup u t) :
    Comes browser setup s t := by
  obtain ⟨events, reached, outside, same⟩ := first
  obtain ⟨more, reached', outside', same'⟩ := second
  refine ⟨events ++ more, Machine.run_append.mpr ⟨u, reached, reached'⟩, ?_, same'.trans same⟩
  intro e member
  rcases List.mem_append.mp member with before | after
  · exact outside e before
  · exact outside' e after

theorem comes_step {e : TimedEvent H} (h : s.step browser setup e = some t) (outside : e.isOutside = true)
    (same : t.page.client.topics = s.page.client.topics) : Comes browser setup s t := by
  refine ⟨[e], Machine.run_cons.mpr ⟨t, h, rfl⟩, ?_, same⟩
  intro other member
  rwa [List.mem_singleton.mp member]

/-- The socket is open to a connection that reads and forwards, and nothing else has been sent. -/
structure Opened (s : Timed F H) (j i : Nat) (sent : List ControlIn) : Prop where
  used : s.page.client.ws = some j
  there : ∃ onclose, s.page.client.sockets[j]? = some ⟨.opened i sent, onclose⟩
  conn : ∃ conn, s.page.server.connections[i]? = some conn ∧ conn.reader = true ∧ conn.fanout = true

theorem Opened.drains (browser : Browser) (setup : StreamSetup F) (opened : Opened s j i sent) :
    ∃ t, Comes browser setup s t ∧ Opened t j i [] := by
  induction sent generalizing s with
  | nil => exact ⟨s, .refl s, opened⟩
  | cons message sent ih =>
    obtain ⟨used, ⟨onclose, there⟩, conn, found, reads, forwards⟩ := opened
    obtain ⟨server, subscriptions, handled, found'⟩ := message_handled setup message found reads
    let next : Timed F H :=
      { s with page := ⟨s.page.client.setState j (.opened i sent), server, s.page.wanted⟩ }
    have stepped : s.step browser setup (.page (.control j)) = some next := by
      rw [step_called (e := .control j) nofun, Page.step, Page.act, there]
      dsimp only
      rw [handled]
      rfl
    have opened : Opened next j i sent := by
      refine ⟨used, ⟨onclose, ?_⟩, _, found', reads, forwards⟩
      rw [StreamClient.sockets_setState, if_pos rfl, there]
      rfl
    obtain ⟨t, comes, drained⟩ := ih opened
    exact ⟨t, (comes_step stepped rfl rfl).trans comes, drained⟩

theorem pending_opens (browser : Browser) (setup : StreamSetup F) {timer : Nat} (pending : timer ∈ s.timers) :
    ∃ t j i sent, Comes browser setup s t ∧ Opened t j i sent := by
  let n := s.page.client.sockets.length
  let i := s.page.server.connections.length
  let fired : Timed F H :=
    { s with page := ⟨s.page.client.openSocket, s.page.server, s.page.wanted⟩, timers := s.timers.erase timer }
  have fires : s.step browser setup (.fire timer) = some fired := if_pos pending
  have connecting : fired.page.client.sockets[n]? = some ⟨.connecting, true⟩ := List.getElem?_concat_length
  let client := fired.page.client.setState n (.opened i [])
  let opened : Timed F H :=
    { fired with
      page := ⟨client.onopen, { s.page.server with connections := s.page.server.connections ++ [.new] },
        s.page.wanted⟩ }
  have opens : fired.step browser setup (.page (.onopen n)) = some opened := by
    rw [step_called (e := .onopen n) nofun, Page.step, Page.act, connecting]
    rfl
  have current : client.current = some (i, []) :=
    StreamClient.current_iff.mpr ⟨n, ⟨.opened i [], true⟩, rfl,
      by rw [StreamClient.sockets_setState, if_pos rfl, connecting]; rfl, rfl⟩
  have asked := StreamClient.sendAll_current client
    (client.topics.keys.flatMap fun topic => [.subscribe [topic], .replay topic 500])
  rw [← StreamClient.onopen_eq, current, Option.map_some] at asked
  obtain ⟨j, socket, used, there, state⟩ := StreamClient.current_iff.mp asked
  obtain ⟨_, onclose⟩ := socket
  cases state
  have topics : opened.page.client.topics = fired.page.client.topics := by
    change client.onopen.topics = _
    rw [StreamClient.onopen_eq, StreamClient.sendAll_topics]
    rfl
  exact ⟨opened, j, i, _, (comes_step fires rfl rfl).trans (comes_step opens rfl topics), used, ⟨onclose, there⟩, .new,
    List.getElem?_concat_length, rfl, rfl⟩

/-- The socket in use closes, and its `onclose` sets a timer. -/
theorem Awake.timer_comes (browser : Browser) (setup : StreamSetup F) (awake : Awake s) (flag : s.shouldReconnect = true)
    (asked : s.page.client.topics.keys ≠ []) :
    ∃ t, Comes browser setup s t ∧ t.timers ≠ [] := by
  cases used : s.page.client.ws with
  | none => exact ⟨s, .refl s, awake.awake flag asked used⟩
  | some j =>
    have heard := awake.tended.used j used
    rw [StreamClient.listening_eq] at heard
    obtain ⟨⟨state, _⟩, there, rfl⟩ := Option.map_eq_some_iff.mp heard
    have closes : ∃ u, Comes browser setup s u ∧ u.page.client.sockets[j]? = some ⟨.closed, true⟩ ∧
        u.shouldReconnect = true := by
      by_cases closed : state = .closed
      · subst closed
        exact ⟨s, .refl s, there, flag⟩
      · let closing : Timed F H :=
          { s with page := ⟨s.page.client.setState j .closed, s.page.server, s.page.wanted⟩ }
        have stepped : s.step browser setup (.page (.closing j)) = some closing := by
          rw [step_called (e := .closing j) nofun, Page.step, Page.act, there]
          cases state with
          | closed => exact absurd rfl closed
          | _ => rfl
        refine ⟨closing, comes_step stepped rfl rfl, ?_, flag⟩
        rw [StreamClient.sockets_setState, if_pos rfl, there]
        rfl
    obtain ⟨u, comes, closed, flag'⟩ := closes
    have asked' : u.page.client.topics.keys ≠ [] := by
      obtain ⟨_, _, _, same⟩ := comes
      rwa [same]
    let lost : Timed F H :=
      { u.setTimer with page := ⟨u.page.client.lose j, u.page.server, u.page.wanted⟩ }
    have stepped : u.step browser setup (.page (.onclose j)) = some lost := by
      rw [step_called (e := .onclose j) nofun, Page.step, Page.act, closed]
      exact congrArg some (by rw [schedule, if_pos ⟨flag', asked'⟩]; rfl)
    refine ⟨lost, comes.trans (comes_step stepped rfl rfl), ?_⟩
    exact List.append_ne_nil_of_right_ne_nil _ (List.cons_ne_nil _ _)

/-- From every state of every run of a client that is to reconnect, the browser, the network and the server alone can
come to where the server holds exactly the client's topics for a connection that reads and forwards. -/
theorem recovers {onGlobalRow : Bool} {events : List (TimedEvent H)}
    (reached : Machine.run (step browser setup) (start onGlobalRow) events = some s)
    (flag : s.shouldReconnect = true) (asked : s.page.client.topics.keys ≠ []) :
    ∃ t i conn, Comes browser setup s t ∧ t.page.client.current = some (i, []) ∧
      t.page.server.connections[i]? = some conn ∧ conn.reader = true ∧ conn.fanout = true ∧
      ∀ key, (conn.subscriptions.get key).isSome = (s.page.client.topics.get key).isSome := by
  have awake : Awake s :=
    Machine.invariant_run (fun _ _ _ awake h => Awake.step awake h) (awake_start onGlobalRow) reached
  obtain ⟨waiting, waits, some'⟩ := awake.timer_comes browser setup flag asked
  obtain ⟨timer, pending⟩ := List.exists_mem_of_ne_nil _ some'
  obtain ⟨opened, j, i, sent, opens, open'⟩ := pending_opens browser setup pending
  obtain ⟨t, drains, done⟩ := open'.drains browser setup
  have comes := (waits.trans opens).trans drains
  obtain ⟨used, ⟨onclose, there⟩, conn, found, reads, forwards⟩ := done
  have current : t.page.client.current = some (i, []) :=
    StreamClient.current_iff.mpr ⟨j, _, used, there, rfl⟩
  refine ⟨t, i, conn, comes, current, found, reads, forwards, fun key => ?_⟩
  obtain ⟨more, later, _, same⟩ := comes
  have all := Machine.run_append.mpr ⟨s, reached, later⟩
  have subscribed : Page.Subscribed t.page :=
    Machine.invariant_run (fun _ _ _ subscribed h => Page.Subscribed.step subscribed h)
      (Page.subscribed_start onGlobalRow) (page_run all)
  have keys := subscribed.keys i [] conn current found reads key
  rwa [same] at keys

/-- The only connection is lost. -/
def losesConnection : List (TimedEvent Nat) :=
  [.page (.addTopic "btc".toList 0), .page (.onopen 0), .page (.control 0), .page (.closing 0), .page (.onclose 0)]

theorem recovers_lost : ∃ s t i conn,
    Machine.run (step Page.asciiBrowser Page.packedTrades) (start false) losesConnection = some s ∧
      s.page.client.ws = none ∧ s.timers = [0] ∧ Comes Page.asciiBrowser Page.packedTrades s t ∧
      t.page.client.current = some (i, []) ∧ t.page.server.connections[i]? = some conn ∧ conn.reader = true ∧
      conn.fanout = true ∧ ∀ key, (conn.subscriptions.get key).isSome = (s.page.client.topics.get key).isSome := by
  obtain ⟨s, reached, unused, timers, flag, asked⟩ : ∃ s,
      Machine.run (step Page.asciiBrowser Page.packedTrades) (start false) losesConnection = some s ∧
        s.page.client.ws = none ∧ s.timers = [0] ∧ s.shouldReconnect = true ∧ s.page.client.topics.keys ≠ [] :=
    ⟨_, rfl, by decide +kernel, by decide +kernel, by decide +kernel, by decide +kernel⟩
  obtain ⟨t, i, conn, recovered⟩ := recovers reached flag asked
  exact ⟨s, t, i, conn, reached, unused, timers, recovered⟩

end Timed
end QuestRouter.Stream.Web
