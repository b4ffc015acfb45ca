import Mathlib.Data.List.DropRight
import QuestRouter.Stream.Subscribed
import QuestRouter.Stream.TopicNames

/-!
# Ticks of a symbol

The hub has topics by the values of the tag as they are, and the page's client has keys by trimmed and lower-cased
symbols. So a page receives the rows of a symbol that is its own key, or those of any symbol while it listens to all
topics; and a row is handed to the symbol that was given last of those with one key.
-/

namespace QuestRouter.Stream.Web
open Text Data Data.Broadcast

/-! ### Symbols and keys -/

theorem trim_eq (s : Str) : trim s = (s.dropWhile isWhiteSpace).rdropWhile isWhiteSpace := rfl

theorem trim_trim (s : Str) : trim (trim s) = trim s := by
  have start : (trim s).dropWhile isWhiteSpace = trim s := by
    rw [List.dropWhile_eq_self_iff]
    intro some
    have first : trim s <+: s.dropWhile isWhiteSpace := List.rdropWhile_prefix _ _
    rw [first.getElem some]
    exact List.dropWhile_get_zero_not _ s (Nat.lt_of_lt_of_le some first.length_le)
  calc trim (trim s) = (trim s).rdropWhile isWhiteSpace := by rw [trim_eq (trim s), start]
    _ = trim s := by rw [trim_eq, List.rdropWhile_idempotent]

variable {F H : Type} {browser : Browser} {setup : StreamSetup F}

@[simp] theorem normalizeTopic_trim (symbol : Str) :
    browser.normalizeTopic (trim symbol) = browser.normalizeTopic symbol := by
  rw [Browser.normalizeTopic, trim_trim, Browser.normalizeTopic]

namespace StreamClient

variable (client : StreamClient H)

@[simp] theorem disconnect_topics : client.disconnect.topics = client.topics := by
  unfold disconnect
  split <;> rfl

theorem onopen_topics : client.onopen.topics = client.topics := by rw [onopen_eq, sendAll_topics]

theorem addTopic_topics (topic : Str) (handlers : H) : (client.addTopic browser topic handlers).topics =
    if browser.normalizeTopic topic = [] then client.topics
    else client.topics.insert (browser.normalizeTopic topic) handlers := by
  unfold addTopic sendSubscribe sendReplay
  dsimp only
  split
  · rfl
  · split
    · rw [send_topics, send_topics]
    · split <;> rfl

theorem removeTopic_topics (topic : Str) (disconnectIfEmpty : Bool) :
    (client.removeTopic browser topic disconnectIfEmpty).topics =
      if browser.normalizeTopic topic = [] then client.topics
      else client.topics.erase (browser.normalizeTopic topic) := by
  unfold removeTopic
  dsimp only
  split
  · rfl
  · split <;> split <;> simp

theorem updateTopic_topics (old new : Str) (handlers : H) : (client.updateTopic browser old new handlers).topics =
    if browser.normalizeTopic new = [] then client.topics
    else
      AList.insert (browser.normalizeTopic new) handlers
        (if browser.normalizeTopic old ≠ [] ∧ browser.normalizeTopic old ≠ browser.normalizeTopic new then
          client.topics.erase (browser.normalizeTopic old)
        else client.topics) := by
  unfold updateTopic sendSubscribe sendReplay
  dsimp only
  split
  · rfl
  · split <;> split
    · simp only [send_topics]
    · split <;> rfl
    · simp only [send_topics]
    · split <;> rfl

end StreamClient

namespace Page

variable {s t s' : Page F H} {v : Str} {i : Nat} {conn : Connection} {row : IlpRow F}

/-- Each key has the handlers that are wanted for one symbol with that key. -/
def Registered (browser : Browser) (topics : HashMap Str (Registration H)) (wanted : HashMap Str H) : Prop :=
  ∀ key registration, topics.get key = some registration →
    key ≠ [] ∧ browser.normalizeTopic registration.symbol = key ∧
      wanted.get registration.symbol = some registration.handlers

section
variable {topics topics' : HashMap Str (Registration H)} {wanted : HashMap Str H} {symbol : Str}

theorem Registered.fewer (registered : Registered browser topics wanted)
    (fewer : ∀ key registration, topics'.get key = some registration → topics.get key = some registration) :
    Registered browser topics' wanted :=
  fun key registration found => registered key registration (fewer key registration found)

theorem Registered.erase (registered : Registered browser topics wanted) (key : Str) :
    Registered browser (AList.erase key topics) wanted := by
  refine registered.fewer fun other registration found => ?_
  rw [HashMap.get_erase] at found
  split at found
  · cases found
  · exact found

/-- A symbol without an entry is not wanted any more. -/
theorem Registered.forget (registered : Registered browser topics wanted)
    (absent : topics.get (browser.normalizeTopic symbol) = none) :
    Registered browser topics (AList.erase (trim symbol) wanted) := by
  intro key registration found
  obtain ⟨some, normal, kept⟩ := registered key registration found
  refine ⟨some, normal, ?_⟩
  rw [HashMap.get_erase, if_neg, kept]
  intro same
  rw [same, normalizeTopic_trim] at normal
  rw [← normal, absent] at found
  cases found

theorem Registered.insert (registered : Registered browser topics wanted)
    (some : browser.normalizeTopic symbol ≠ []) (handlers : H) :
    Registered browser (AList.insert (browser.normalizeTopic symbol) ⟨trim symbol, handlers⟩ topics)
      (AList.insert (trim symbol) handlers wanted) := by
  intro key registration found
  by_cases same : key = browser.normalizeTopic symbol
  · rw [same, HashMap.get_insert] at found
    cases found
    exact ⟨same ▸ some, by rw [normalizeTopic_trim, same], HashMap.get_insert _ _ _⟩
  · rw [HashMap.get_insert_ne _ _ same] at found
    obtain ⟨some, normal, kept⟩ := registered key registration found
    refine ⟨some, normal, ?_⟩
    rw [HashMap.get_insert_ne, kept]
    intro clash
    rw [clash, normalizeTopic_trim] at normal
    exact same normal.symm

/-- The old symbol gives way to the new one. -/
theorem Registered.update (registered : Registered browser topics wanted) (old : Str)
    (some : browser.normalizeTopic symbol ≠ []) (handlers : H) :
    Registered browser
      (AList.insert (browser.normalizeTopic symbol) ⟨trim symbol, handlers⟩
        (if browser.normalizeTopic old ≠ [] ∧ browser.normalizeTopic old ≠ browser.normalizeTopic symbol then
          AList.erase (browser.normalizeTopic old) topics
        else topics))
      (AList.insert (trim symbol) handlers (AList.erase (trim old) wanted)) := by
  have without : Registered browser (AList.erase (browser.normalizeTopic old) topics)
      (AList.erase (trim old) wanted) :=
    (registered.erase _).forget (by rw [HashMap.get_erase, if_pos rfl])
  split
  · exact without.insert some handlers
  · rename_i stays
    refine (without.insert some handlers).fewer fun key registration found => ?_
    by_cases same : key = browser.normalizeTopic symbol
    · rw [same, HashMap.get_insert] at found ⊢
      exact found
    · rw [HashMap.get_insert_ne _ _ same] at found ⊢
      rw [HashMap.get_erase, if_neg, found]
      rintro rfl
      exact stays ⟨(registered _ registration found).1, same⟩

end

theorem registered_step {e : PageEvent H} (registered : Registered browser s.client.topics s.wanted)
    (h : s.step browser setup e = some t) : Registered browser t.client.topics t.wanted := by
  obtain ⟨acts, wanted⟩ := step_acts browser setup h
  rw [wanted]
  obtain ⟨client, server, _⟩ := t
  dsimp only at acts ⊢
  cases acts with
  | addTopic symbol handlers =>
    rw [StreamClient.addTopic_topics, wants]
    split
    · exact registered
    · rename_i some
      exact registered.insert some handlers
  | updateTopic old new handlers =>
    rw [StreamClient.updateTopic_topics, wants]
    split
    · exact registered
    · rename_i some
      exact registered.update old some handlers
  | removeTopic symbol disconnectIfEmpty =>
    rw [StreamClient.removeTopic_topics, wants]
    split
    · exact registered
    · exact (registered.erase _).forget (by rw [HashMap.get_erase, if_pos rfl])
  | disconnect =>
    rw [StreamClient.disconnect_topics]
    exact registered
  | onopen connecting =>
    rw [StreamClient.onopen_topics]
    exact registered
  | _ => exact registered

/-! ### Every run -/

/-- What holds in every run of the page and the server. -/
structure Kept (browser : Browser) (s : Page F H) : Prop where
  attached : s.server.Attached
  subscribed : Subscribed s
  registered : Registered browser s.client.topics s.wanted

theorem kept_run {events : List (PageEvent H)} (kept : Kept browser s)
    (reached : Machine.run (step browser setup) s events = some t) : Kept browser t :=
  Machine.invariant_run (fun _ _ _ kept h =>
    ⟨attached_step kept.attached h, kept.subscribed.step h, registered_step kept.registered h⟩) kept reached

theorem kept_start (onGlobalRow : Bool) : Kept browser (start onGlobalRow : Page F H) :=
  ⟨StreamServer.attached_start, subscribed_start onGlobalRow, nofun⟩

/-- The page wants the symbol, and the server has handled what was sent for it over the socket in use, reads on and
forwards. -/
structure TookEffect (browser : Browser) (s : Page F H) (v : Str) (i : Nat) (conn : Connection) : Prop where
  wanted : (s.wanted.get v).isSome = true
  current : ∃ sent, s.client.current = some (i, sent) ∧
    ∀ message ∈ sent, message.mentions v = false ∧ message.mentions (browser.normalizeTopic v) = false
  found : s.server.connections[i]? = some conn
  reads : conn.reader = true
  forwards : conn.fanout = true

/-- The hub sends the row to a receiver of the connection, and when the page reads it, it calls the handlers that
were given for the symbol and those of no other. -/
structure Receives (browser : Browser) (setup : StreamSetup F) (s s' : Page F H) (v : Str) (i : Nat) (line : Bytes)
    (tick : StreamTick F) (handlers : H) : Prop where
  delivered : ∃ key r rc, s.server.HeldBy i key r ∧ s.server.hub.bus.receiver r = some rc ∧
    (s.server.hub.publish setup line).bus.receiver r = some (rc.deliver setup.config.capacity tick)
  called : ∃ row, .onRow ⟨v, handlers⟩ row ∈ s'.client.onmessage browser tick.wire
  others : ∀ registration row, .onRow registration row ∈ s'.client.onmessage browser tick.wire →
    registration.symbol = v

/-- The value of the last tag that the page takes for the symbol. -/
def lastSymbol (browser : Browser) (tags : List (Str × Str)) : Option Str :=
  (tags.reverse.find? fun tag => browser.toLowerCase tag.1 = "symbol".toList).map Prod.snd

/-- The symbol is a key of the client, or the connection listens to all topics and the hub counts that; its key still
belongs to it; and a later tag of the row does not have another key. -/
structure Served (browser : Browser) (s s' : Page F H) (conn : Connection) (v : Str) (row : IlpRow F) : Prop where
  heard : v ≠ wildcardTopic ∧ (s.client.topics.get v).isSome = true ∨
    conn.holdsWildcard = true ∧ 0 < s.server.hub.wildcardSubscribers
  own : (s'.client.topics.get (browser.normalizeTopic v)).map Registration.symbol = some v
  agree : ∃ w, lastSymbol browser row.tags = some w ∧ browser.normalizeTopic w = browser.normalizeTopic v

/-! ### What the page does with a row -/

theorem deriveTopic_symbol {config : StreamConfig} (single : config.topicTags = ["symbol".toList])
    (tagged : row.tag "symbol".toList = some v) : deriveTopic row config = v := by
  rw [deriveTopic_eq, single, List.map_singleton, List.intercalate_singleton, StreamConfig.part, tagged,
    Option.getD_some]

theorem topicRow_topic {line : Bytes} {topic : Str} (shown : setup.topicRow line = some (topic, row)) :
    topic = deriveTopic row setup.config := by
  obtain ⟨measurement, _, shown⟩ := Option.bind_eq_some_iff.mp shown
  split at shown
  · obtain ⟨parsed, _, same⟩ := Option.bind_eq_some_iff.mp shown
    cases same
    rfl
  · cases shown

theorem tagsToMap_symbol (tags : List (Str × Str)) :
    (browser.tagsToMap tags).get "symbol".toList = lastSymbol browser tags := by
  rw [Browser.tagsToMap, HashMap.get_collect, lastSymbol, ← List.map_reverse, List.find?_map, Option.map_map]
  rfl

theorem ascii_of_toLower {c : Char} (ascii : c.toLower.toNat < 128) : c.toNat < 128 := by
  by_cases upper : c.val ≥ 'A'.val ∧ c.val ≤ 'Z'.val
  · exact Nat.lt_of_le_of_lt (UInt32.le_iff_toNat_le.mp upper.2) (by decide)
  · have same : c.toLower = c := dif_neg upper
    rwa [same] at ascii

/-- A tag that the hub takes for the symbol is one that the page takes for it. -/
theorem lastSymbol_isSome (ascii : browser.LowersAscii) (tagged : row.tag "symbol".toList = some v) :
    (lastSymbol browser row.tags).isSome = true := by
  obtain ⟨tag, found, _⟩ := Option.map_eq_some_iff.mp tagged
  have whether := List.find?_some found
  have named : toAsciiLowercase tag.1 = "symbol".toList := eqIgnoreAsciiCase_iff.mp whether
  have plain : ∀ c ∈ tag.1, c.toNat < 128 := by
    intro c member
    have lowered : c.toLower ∈ "symbol".toList := named ▸ List.mem_map_of_mem member
    have small : "symbol".toList.all (fun d => d.toNat < 128) = true := by decide
    exact ascii_of_toLower (of_decide_eq_true (List.all_eq_true.mp small _ lowered))
  rw [lastSymbol, Option.isSome_map, List.find?_isSome]
  refine ⟨tag, List.mem_reverse.mpr (List.mem_of_find?_eq_some found), decide_eq_true ?_⟩
  rw [ascii tag.1 plain, named]

theorem onRow_iff {wire : Bytes} {client : StreamClient H} {handlers : H} {pageRow pageRow' : PageRow}
    (decoded : browser.decode wire = some (.row pageRow)) :
    .onRow handlers pageRow' ∈ client.onmessage browser wire ↔
      client.topics.get (browser.normalizeTopic (browser.deriveTopicFromRow pageRow)) = some handlers ∧
        pageRow' = pageRow := by
  unfold StreamClient.onmessage
  rw [decoded]
  dsimp only
  have global : ∀ topic, HandlerCall.onRow handlers pageRow' ∉
      if client.onGlobalRow then [HandlerCall.onGlobalRow topic pageRow] else [] := by
    intro topic
    split <;> simp
  rw [List.mem_append, or_iff_right (global _)]
  split
  · rename_i own found
    rw [found]
    simp [eq_comm]
  · rename_i missing
    rw [missing]
    simp

/-- The handlers of a row are those that were given for the symbol, exactly if the symbol's key is still its own and
is the key of the row. -/
theorem called_iff (registered : Registered browser s.client.topics s.wanted) (ascii : browser.LowersAscii)
    (tagged : row.tag "symbol".toList = some v) {wire : Bytes} {handlers : H} (wants : s.wanted.get v = some handlers)
    (decoded : browser.decode wire = some (.row ⟨row.measurement, row.tags⟩)) :
    ((∃ pageRow, .onRow ⟨v, handlers⟩ pageRow ∈ s.client.onmessage browser wire) ∧
      ∀ registration pageRow, .onRow registration pageRow ∈ s.client.onmessage browser wire →
        registration.symbol = v) ↔
      (s.client.topics.get (browser.normalizeTopic v)).map Registration.symbol = some v ∧
        ∃ w, lastSymbol browser row.tags = some w ∧ browser.normalizeTopic w = browser.normalizeTopic v := by
  obtain ⟨w, last⟩ := Option.isSome_iff_exists.mp (lastSymbol_isSome ascii tagged)
  have topic : browser.deriveTopicFromRow ⟨row.measurement, row.tags⟩ = w := by
    rw [Browser.deriveTopicFromRow, tagsToMap_symbol, last, Option.getD_some]
  simp only [onRow_iff decoded, topic, last]
  constructor
  · rintro ⟨⟨_, found, _⟩, _⟩
    have normal := (registered _ _ found).2.1
    dsimp only at normal
    rw [← normal] at found
    exact ⟨by rw [found]; rfl, w, rfl, normal.symm⟩
  · rintro ⟨own, _, same, agree⟩
    cases same
    obtain ⟨⟨symbol, given⟩, found, rfl⟩ := Option.map_eq_some_iff.mp own
    have kept := (registered _ _ found).2.2
    cases wants.symm.trans kept
    rw [agree]
    refine ⟨⟨_, found, rfl⟩, fun registration _ other => ?_⟩
    cases found.symm.trans other.1
    rfl

/-- A receiver of the connection is sent the row exactly if its key is the symbol, or stands for all topics while the
hub counts somebody there. -/
theorem sent_iff (attached : s.server.Attached) {key : Str} {r : Nat} (held : s.server.HeldBy i key r)
    {line wire : Bytes} (shown : setup.topicRow line = some (v, row)) (encoded : setup.encodeTick row = some wire) :
    (∃ rc, s.server.hub.bus.receiver r = some rc ∧
      (s.server.hub.publish setup line).bus.receiver r = some (rc.deliver setup.config.capacity ⟨row, wire⟩)) ↔
      s.server.hub.Reaches v key := by
  obtain ⟨rc, live, known⟩ := attached.listens i key r held
  have after := BroadcastHub.publish_receiver attached.wellFormed shown encoded live known
  constructor
  · rintro ⟨rc', live', sent⟩
    cases live.symm.trans live'
    by_contra unreached
    rw [after, if_neg unreached] at sent
    exact Bus.deliver_ne rc _ _ (Option.some.inj sent).symm
  · intro reaches
    exact ⟨rc, live, by rw [after, if_pos reaches]⟩

theorem delivered_iff (kept : Kept browser s) (took : TookEffect browser s v i conn) {line wire : Bytes}
    (shown : setup.topicRow line = some (v, row)) (encoded : setup.encodeTick row = some wire) :
    (∃ key r rc, s.server.HeldBy i key r ∧ s.server.hub.bus.receiver r = some rc ∧
      (s.server.hub.publish setup line).bus.receiver r = some (rc.deliver setup.config.capacity ⟨row, wire⟩)) ↔
      v ≠ wildcardTopic ∧ (s.client.topics.get v).isSome = true ∨
        conn.holdsWildcard = true ∧ 0 < s.server.hub.wildcardSubscribers := by
  obtain ⟨sent, current, settled⟩ := took.current
  have holds : ∀ {key}, (∃ r, s.server.HeldBy i key r) ↔ (conn.subscriptions.get key).isSome = true := by
    intro key
    rw [Option.isSome_iff_exists]
    exact exists_congr fun r => StreamServer.heldBy_iff took.found key r
  have mine : (conn.subscriptions.get v).isSome = (s.client.topics.get v).isSome := by
    rw [← kept.subscribed.keys i sent conn current took.found took.reads v,
      ControlIn.after_unmentioned fun message member => (settled message member).1]
  rw [← mine]
  constructor
  · rintro ⟨key, r, rc, held, live, delivered⟩
    have reaches := (sent_iff kept.attached held shown encoded).mp ⟨rc, live, delivered⟩
    have has := holds.mp ⟨r, held⟩
    by_cases all : key = wildcardTopic
    · rw [all] at has
      exact .inr ⟨has, (BroadcastHub.reaches_of_wildcard all).mp reaches⟩
    · rw [← (BroadcastHub.reaches_of_topic all).mp reaches]
      exact .inl ⟨all, has⟩
  · have reached : ∀ {key}, (conn.subscriptions.get key).isSome = true → s.server.hub.Reaches v key →
        ∃ key r rc, s.server.HeldBy i key r ∧ s.server.hub.bus.receiver r = some rc ∧
          (s.server.hub.publish setup line).bus.receiver r =
            some (rc.deliver setup.config.capacity ⟨row, wire⟩) := by
      intro key has reaches
      obtain ⟨r, held⟩ := holds.mpr has
      obtain ⟨rc, live, sent⟩ := (sent_iff kept.attached held shown encoded).mpr reaches
      exact ⟨key, r, rc, held, live, sent⟩
    rintro (⟨plain, has⟩ | ⟨has, counted⟩)
    · exact reached has ((BroadcastHub.reaches_of_topic plain).mpr rfl)
    · exact reached has ((BroadcastHub.reaches_of_wildcard rfl).mpr counted)

/-- In every run, once a symbol has been asked for over an open socket and the server has handled that, the page
receives the rows of the symbol exactly if it is served. -/
theorem receives_iff (ascii : browser.LowersAscii) (single : setup.config.topicTags = ["symbol".toList])
    {onGlobalRow : Bool} {events more : List (PageEvent H)}
    (reached : Machine.run (step browser setup) (start onGlobalRow) events = some s)
    (later : Machine.run (step browser setup) s more = some s') (took : TookEffect browser s v i conn)
    {line wire : Bytes} {topic : Str} (shown : setup.topicRow line = some (topic, row))
    (tagged : row.tag "symbol".toList = some v) (encoded : setup.encodeTick row = some wire)
    (decoded : browser.decode wire = some (.row ⟨row.measurement, row.tags⟩)) {handlers : H}
    (wants : s'.wanted.get v = some handlers) :
    Receives browser setup s s' v i line ⟨row, wire⟩ handlers ↔ Served browser s s' conn v row := by
  have kept := kept_run (kept_start onGlobalRow) reached
  have kept' := kept_run kept later
  rw [topicRow_topic shown, deriveTopic_symbol single tagged] at shown
  have delivered := delivered_iff kept took shown encoded
  have called := called_iff kept'.registered ascii tagged wants decoded
  constructor
  · rintro ⟨sent, call, others⟩
    obtain ⟨own, agree⟩ := called.mp ⟨call, others⟩
    exact ⟨delivered.mp sent, own, agree⟩
  · rintro ⟨heard, own, agree⟩
    obtain ⟨call, others⟩ := called.mpr ⟨own, agree⟩
    exact ⟨delivered.mpr heard, call, others⟩

/-- The MessagePack text of a short string. -/
def packStr (s : Str) : Bytes := UInt8.ofNat (0xA0 + s.length) :: asBytes s

/-- The MessagePack text of a trade at one for a symbol. -/
def packTrade (symbol : Str) : Bytes :=
  0x84 :: packStr "measurement".toList ++ packStr "trades".toList ++ packStr "tags".toList ++
    [0x91, 0x92] ++ packStr "symbol".toList ++ packStr symbol ++ packStr "fields".toList ++
    [0x91, 0x92] ++ packStr "p".toList ++ [1] ++ packStr "timestamp_ns".toList ++ [1]

def packedTrades : StreamSetup Empty :=
  { tradesSetup with encodeTick := fun row => (row.tag "symbol".toList).map packTrade }

/-- A browser that has met these two symbols. -/
def asciiBrowser : Browser where
  toLowerCase := toAsciiLowercase
  decode data := (["btc".toList, "BTC".toList].find? fun symbol => data = packTrade symbol).map fun symbol =>
    .row ⟨"trades".toList, [("symbol".toList, symbol)]⟩

def tradeOf (symbol : Str) : IlpRow Empty :=
  ⟨"trades".toList, [("symbol".toList, symbol)], [("p".toList, .integer 1)], some 1⟩

/-- A page with an open socket asks for one more symbol. -/
def asksFor (symbol : Str) : List (PageEvent Nat) :=
  [.addTopic "eth".toList 0, .onopen 0, .control 0, .control 0, .addTopic symbol 1, .control 0, .control 0]

theorem asciiBrowser_lowers : asciiBrowser.LowersAscii := fun _ _ => rfl

theorem receives_iff_btc : ∃ s,
    Machine.run (step asciiBrowser packedTrades) (start false) (asksFor "btc".toList) = some s ∧
      Receives asciiBrowser packedTrades s s "btc".toList 0 (asBytes "trades,symbol=btc p=1i 1\n".toList)
        ⟨tradeOf "btc".toList, packTrade "btc".toList⟩ 1 := by
  obtain ⟨s, conn, reached, wanted, current, found, reads, forwards, key⟩ : ∃ s conn,
      Machine.run (step asciiBrowser packedTrades) (start false) (asksFor "btc".toList) = some s ∧
        s.wanted.get "btc".toList = some 1 ∧ s.client.current = some (0, []) ∧ s.server.connections[0]? = some conn ∧
        conn.reader = true ∧ conn.fanout = true ∧ s.client.topics.get "btc".toList = some ⟨"btc".toList, 1⟩ :=
    ⟨_, _, rfl, by decide +kernel, by decide +kernel, rfl, rfl, rfl, by decide +kernel⟩
  have took : TookEffect asciiBrowser s "btc".toList 0 conn :=
    ⟨by rw [wanted]; rfl, ⟨[], current, fun _ none => nomatch none⟩, found, reads, forwards⟩
  have shown : packedTrades.topicRow (asBytes "trades,symbol=btc p=1i 1\n".toList) =
      some ("btc".toList, tradeOf "btc".toList) := by decide +kernel
  have normal : asciiBrowser.normalizeTopic "btc".toList = "btc".toList := by decide
  have stays : Machine.run (step asciiBrowser packedTrades) s [] = some s := rfl
  refine ⟨s, reached, (receives_iff asciiBrowser_lowers rfl reached stays took shown (by decide)
    (by decide +kernel) (by decide +kernel) wanted).mpr ⟨.inl ⟨by decide, by rw [key]; rfl⟩, ?_, "btc".toList, ?_, rfl⟩⟩
  · rw [normal, key]
    rfl
  · decide

/-- The server has a topic for the symbol as it was given; the page is subscribed to another one. -/
theorem upper_case_unheard : ∃ s conn,
    Machine.run (step asciiBrowser packedTrades) (start false) (asksFor "BTC".toList) = some s ∧
      TookEffect asciiBrowser s "BTC".toList 0 conn ∧ s.wanted.get "BTC".toList = some 1 ∧
      packedTrades.topicRow (asBytes "trades,symbol=BTC p=1i 1\n".toList) =
        some ("BTC".toList, tradeOf "BTC".toList) ∧
      ¬ Receives asciiBrowser packedTrades s s "BTC".toList 0 (asBytes "trades,symbol=BTC p=1i 1\n".toList)
        ⟨tradeOf "BTC".toList, packTrade "BTC".toList⟩ 1 := by
  obtain ⟨s, conn, reached, wanted, current, found, reads, forwards, plain, key⟩ : ∃ s conn,
      Machine.run (step asciiBrowser packedTrades) (start false) (asksFor "BTC".toList) = some s ∧
        s.wanted.get "BTC".toList = some 1 ∧ s.client.current = some (0, []) ∧ s.server.connections[0]? = some conn ∧
        conn.reader = true ∧ conn.fanout = true ∧ conn.holdsWildcard = false ∧
        s.client.topics.get "BTC".toList = none :=
    ⟨_, _, rfl, by decide +kernel, by decide +kernel, rfl, rfl, rfl, by decide +kernel, by decide +kernel⟩
  have took : TookEffect asciiBrowser s "BTC".toList 0 conn :=
    ⟨by rw [wanted]; rfl, ⟨[], current, fun _ none => nomatch none⟩, found, reads, forwards⟩
  have shown : packedTrades.topicRow (asBytes "trades,symbol=BTC p=1i 1\n".toList) =
      some ("BTC".toList, tradeOf "BTC".toList) := by decide +kernel
  refine ⟨s, conn, reached, took, wanted, shown, fun receives => ?_⟩
  have kept := kept_run (kept_start false) reached
  rcases (delivered_iff kept took shown (by decide +kernel)).mp receives.delivered with ⟨_, held⟩ | ⟨held, _⟩
  · rw [key] at held
    cases held
  · rw [plain] at held
    cases held

end Page
end QuestRouter.Stream.Web
