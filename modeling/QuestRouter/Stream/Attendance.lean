import QuestRouter.Stream.ClientSteps

/-!
# A client that stays

A client that does not unsubscribe keeps a receiver on the channel of everything it subscribed to. As long as
these have room for what is sent, none of them lags or is closed.
-/

namespace QuestRouter.Stream
open Text Data Data.Broadcast

namespace BroadcastHub

variable {ρ τ : Type} {hub : BroadcastHub ρ τ} {key : Str} {channel : Nat}

/-- The channel that a key of a client's map stands for. -/
def channelOf (hub : BroadcastHub ρ τ) (key : Str) : Option Nat :=
  if key = wildcardTopic then some wildcard else (hub.topics.get key).map TopicChannel.tx

/-- Every receiver of the channel has room for a value. -/
def Roomy (config : StreamConfig) (hub : BroadcastHub ρ τ) (channel : Nat) : Prop :=
  ∀ r < hub.bus.next, ∀ rc ∈ hub.bus.receiver r, rc.channel = channel → rc.unread.length < config.capacity

instance (config : StreamConfig) (hub : BroadcastHub ρ τ) (channel : Nat) : Decidable (hub.Roomy config channel) :=
  inferInstanceAs (Decidable (∀ r < hub.bus.next, ∀ rc ∈ hub.bus.receiver r,
    rc.channel = channel → rc.unread.length < config.capacity))

theorem channelOf_wildcard (hub : BroadcastHub ρ τ) : hub.channelOf wildcardTopic = some wildcard := if_pos rfl

theorem channelOf_topic (topic : key ≠ wildcardTopic) :
    hub.channelOf key = (hub.topics.get key).map TopicChannel.tx := if_neg topic

theorem hasSender_of_channelOf (known : hub.channelOf key = some channel) : hub.hasSender channel = true := by
  unfold hasSender
  by_cases all : key = wildcardTopic
  · rw [all, channelOf_wildcard] at known
    cases known
    simp
  · rw [channelOf_topic all] at known
    obtain ⟨ch, found, tx⟩ := Option.map_eq_some_iff.mp known
    rw [Bool.or_eq_true]
    right
    exact List.any_eq_true.mpr ⟨⟨key, ch⟩, AList.mem_lookup_iff.mp found, by simpa using tx⟩

/-- Channels stay as long as no topic is removed. -/
theorem channelOf_of_topics {hub' : BroadcastHub ρ τ} (known : hub.channelOf key = some channel)
    (topics : ∀ topic ch, hub.topics.get topic = some ch →
      ∃ ch', hub'.topics.get topic = some ch' ∧ ch'.tx = ch.tx) : hub'.channelOf key = some channel := by
  by_cases all : key = wildcardTopic
  · rw [all, channelOf_wildcard] at known ⊢
    exact known
  · rw [channelOf_topic all] at known ⊢
    obtain ⟨ch, found, tx⟩ := Option.map_eq_some_iff.mp known
    obtain ⟨ch', found', same⟩ := topics key ch found
    exact Option.map_eq_some_iff.mpr ⟨ch', found', same.trans tx⟩

theorem sendToTopic_channelOf (known : hub.channelOf key = some channel) (config : StreamConfig) (topic : Str)
    (row : ρ) (tick : τ) : (hub.sendToTopic config topic row tick).channelOf key = some channel :=
  channelOf_of_topics known fun _ _ found => sendToTopic_keeps found config topic row tick

theorem subscribeTopic_channelOf (known : hub.channelOf key = some channel) (other : Str) :
    (hub.subscribeTopic other).2.channelOf key = some channel := by
  unfold subscribeTopic
  split
  · exact channelOf_of_topics known fun _ ch found => ⟨ch, found, rfl⟩
  · refine channelOf_of_topics known fun topic ch found => ⟨ch, ?_, rfl⟩
    rw [subscribe_topics]
    exact getOrCreateTopic_keeps found other

/-- The new receiver listens to the channel of the key. -/
theorem subscribeTopic_new (hub : BroadcastHub ρ τ) (key : Str) :
    ∃ rc, (hub.subscribeTopic key).2.bus.receiver hub.bus.next = some rc ∧ rc.missed = 0 ∧
      (hub.subscribeTopic key).2.channelOf key = some rc.channel := by
  unfold subscribeTopic
  split
  · rename_i all
    refine ⟨⟨wildcard, [], 0⟩, ?_, rfl, by rw [all, channelOf_wildcard]⟩
    change (hub.bus.subscribe wildcard).receiver _ = _
    rw [Bus.subscribe_receiver, if_pos rfl]
  · rename_i topic
    refine ⟨⟨(hub.getOrCreateTopic key).1.tx, [], 0⟩, ?_, rfl, ?_⟩
    · rw [subscribe_bus, Bus.subscribe_receiver, if_pos rfl]
    · rw [channelOf_topic topic, subscribe_topics, getOrCreateTopic_get]
      rfl

theorem subscribeTopic_receiver (hub : BroadcastHub ρ τ) (key : Str) {r : Nat} (old : r ≠ hub.bus.next) :
    (hub.subscribeTopic key).2.bus.receiver r = hub.bus.receiver r := by
  unfold subscribeTopic
  split
  · exact if_neg old
  · rw [subscribe_bus, Bus.subscribe_receiver, if_neg old]

end BroadcastHub

namespace Client

variable {F : Type} {setup : StreamSetup F} {s t : Client F}

/-- The client has a receiver for the key, in the map or about to be inserted. -/
def Owns (s : Client F) (key : Str) (r : Nat) : Prop :=
  s.subscriptions.get key = some r ∨ s.reader = .holding key r

theorem subscribed_iff {key : Str} : s.subscribed key = true ↔ ∃ r, Owns s key r := by
  unfold subscribed Owns
  rw [Bool.or_eq_true, Option.isSome_iff_exists, exists_or]
  refine or_congr Iff.rfl ?_
  cases s.reader with
  | holding held r => simp [eq_comm]
  | _ => simp

theorem Owned.apart_owns (owned : Owned s) {key key' : Str} {r : Nat} (first : Owns s key r)
    (second : s.subscriptions.get key' = some r) : s.subscriptions.get key = some r ∧ key = key' := by
  rcases first with found | holds
  · exact ⟨found, owned.apart key key' r found second⟩
  · exact ((owned.held key r holds).2 key' second).elim

/-- What the publish is about to send finds room. -/
def HasRoom (setup : StreamSetup F) (s : Client F) : PublishStage F → Prop
  | .toTopic tick _ => s.hub.Roomy setup.config (s.hub.getOrCreateTopic tick.topic).1.tx
  | .toWildcard _ => s.hub.Roomy setup.config BroadcastHub.wildcard
  | _ => True

/-- The client does not unsubscribe, and what is sent finds room. -/
def Stays (setup : StreamSetup F) (s : Client F) : ClientEvent → Prop
  | .unsubscribe _ => False
  | .subscribe key => key = wildcardTopic → s.hub.wildcardSubscribers + 1 < 2 ^ 64
  | .publisher i _ => ∀ p ∈ s.publishes[i]?, HasRoom setup s p.stage
  | _ => True

instance HasRoom.decidable (setup : StreamSetup F) (s : Client F) : ∀ stage, Decidable (HasRoom setup s stage)
  | .toTopic tick _ => inferInstanceAs (Decidable (s.hub.Roomy setup.config (s.hub.getOrCreateTopic tick.topic).1.tx))
  | .toWildcard _ => inferInstanceAs (Decidable (s.hub.Roomy setup.config BroadcastHub.wildcard))
  | .started | .sawWildcard _ | .notifiesTopic _ _ | .notifiesWildcard | .returned => .isTrue trivial

instance Stays.decidable (setup : StreamSetup F) (s : Client F) : ∀ e, Decidable (Stays setup s e)
  | .unsubscribe _ => .isFalse id
  | .subscribe key => inferInstanceAs (Decidable (key = wildcardTopic → s.hub.wildcardSubscribers + 1 < 2 ^ 64))
  | .publisher i _ => inferInstanceAs (Decidable (∀ p ∈ s.publishes[i]?, HasRoom setup s p.stage))
  | .publish _ | .reader | .look | .visit _ | .receive | .finish | .enable | .awake => .isTrue trivial

/-- Every receiver of the client is on its channel and has missed nothing. -/
structure Attends (s : Client F) : Prop where
  owned : Owned s
  stays : s.reader = .idle ∨ ∃ key r, s.reader = .holding key r
  attached : ∀ key r, Owns s key r →
    ∃ rc, s.hub.bus.receiver r = some rc ∧ rc.missed = 0 ∧ s.hub.channelOf key = some rc.channel
  counted : ∀ r, Owns s wildcardTopic r → 0 < s.hub.wildcardSubscribers
  keepsUp : s.lagDrops = 0
  isOpen : ∀ enabled drain, s.fanout = .draining enabled drain → drain.closed = []

theorem owns_start {key : Str} {r : Nat} : ¬ Owns (start : Client F) key r := by
  rintro (found | holds)
  · cases found
  · cases holds

theorem attends_start : Attends (start : Client F) :=
  ⟨owned_start, .inl rfl, fun _ _ owns => (owns_start owns).elim, fun _ owns => (owns_start owns).elim, rfl, nofun⟩

theorem owns_congr (subscriptions : t.subscriptions = s.subscriptions) (reader : t.reader = s.reader) {key : Str}
    {r : Nat} : Owns t key r ↔ Owns s key r := by
  unfold Owns
  rw [subscriptions, reader]

/-- A hub that keeps the client's receivers, their channels and the counter. -/
theorem Attends.frame (attends : Attends s) (owned : Owned t) (subscriptions : t.subscriptions = s.subscriptions)
    (reader : t.reader = s.reader) (lag : t.lagDrops = s.lagDrops)
    (isOpen : ∀ enabled drain, t.fanout = .draining enabled drain → drain.closed = [])
    (counter : t.hub.wildcardSubscribers = s.hub.wildcardSubscribers)
    (channels : ∀ key channel, s.hub.channelOf key = some channel → t.hub.channelOf key = some channel)
    (receivers : ∀ r rc, s.hub.bus.receiver r = some rc → rc.missed = 0 →
      ∃ rc', t.hub.bus.receiver r = some rc' ∧ rc'.missed = 0 ∧ rc'.channel = rc.channel) : Attends t := by
  refine ⟨owned, by rw [reader]; exact attends.stays, fun key r has => ?_, fun r has => ?_,
    lag.trans attends.keepsUp, isOpen⟩
  · obtain ⟨rc, live, kept, known⟩ := attends.attached key r ((owns_congr subscriptions reader).mp has)
    obtain ⟨rc', live', kept', same⟩ := receivers r rc live kept
    exact ⟨rc', live', kept', by rw [same]; exact channels key _ known⟩
  · rw [counter]
    exact attends.counted r ((owns_congr subscriptions reader).mp has)

/-- Nothing happens to the hub. -/
theorem Attends.aside (attends : Attends s) (owned : Owned t) (hub : t.hub = s.hub)
    (subscriptions : t.subscriptions = s.subscriptions) (reader : t.reader = s.reader) (lag : t.lagDrops = s.lagDrops)
    (isOpen : ∀ enabled drain, t.fanout = .draining enabled drain → drain.closed = []) : Attends t :=
  attends.frame owned subscriptions reader lag isOpen (by rw [hub]) (fun _ _ known => hub ▸ known)
    fun _ rc live kept => ⟨rc, hub ▸ live, kept, rfl⟩

/-! ### One step -/

theorem publisher_attends {i : Nat} {p : Publish F} (address : Nat) (attends : Attends s)
    (found : s.publishes[i]? = some p) (stays : Stays setup s (.publisher i address)) (does : Publishes setup s i p t) : Attends t := by
  have owned : Owned t := publisher_owned attends.owned does
  have room := stays p found
  cases does with
  | load stage => exact attends.aside owned rfl rfl rfl rfl attends.isOpen
  | turnBack stage nobody => exact attends.aside owned rfl rfl rfl rfl attends.isOpen
  | allocate stage encoded free somebody => exact attends.aside owned rfl rfl rfl rfl attends.isOpen
  | @sendTopic tick wildcard stage =>
    rw [stage] at room
    refine attends.frame owned rfl rfl rfl attends.isOpen
      (BroadcastHub.sendToTopic_wildcardSubscribers _ _ _ _ _)
      (fun _ _ known => BroadcastHub.sendToTopic_channelOf known _ _ _ _) fun r rc live kept => ?_
    have bus := BroadcastHub.sendToTopic_bus setup.config s.hub tick.topic tick.row tick
    dsimp only at room ⊢
    rw [bus]
    exact Bus.send_roomy live (room r (Bus.lt_next live) rc live) kept tick
  | notifyTopic stage => exact attends.aside owned rfl rfl rfl rfl attends.isOpen
  | @sendWildcard tick stage =>
    rw [stage] at room
    refine attends.frame owned rfl rfl rfl attends.isOpen rfl (fun _ _ known => known) fun r rc live kept => ?_
    exact Bus.send_roomy live (room r (Bus.lt_next live) rc live) kept tick
  | notifyWildcard stage => exact attends.aside owned rfl rfl rfl rfl attends.isOpen

theorem insert_owns (owned : Owned s) {key : Str} {r : Nat} (stage : s.reader = .holding key r) {other : Str}
    {r' : Nat} : Owns (s.insert key r) other r' ↔ Owns s other r' ∧ s.subscriptions.get key ≠ some r' := by
  have free := (owned.held key r stage).2
  have same : Owns (s.insert key r) other r' ↔
      HashMap.get (AList.insert key r s.subscriptions) other = some r' := or_iff_left nofun
  rw [same]
  by_cases entry : other = key
  · subst entry
    rw [HashMap.get_insert]
    constructor
    · intro found
      cases found
      exact ⟨.inr stage, free other⟩
    · rintro ⟨found | holds, replaced⟩
      · exact (replaced found).elim
      · rw [stage] at holds
        cases holds
        rfl
  · rw [HashMap.get_insert_ne _ _ entry]
    constructor
    · intro found
      exact ⟨.inl found, fun again => entry (owned.apart other key r' found again)⟩
    · rintro ⟨found | holds, _⟩
      · exact found
      · rw [stage] at holds
        cases holds
        exact (entry rfl).elim

theorem insert_attends {key : Str} {r : Nat} (attends : Attends s) (stage : s.reader = .holding key r) :
    Attends (s.insert key r) := by
  have owns : ∀ {other r'}, Owns (s.insert key r) other r' → Owns s other r' ∧ s.subscriptions.get key ≠ some r' :=
    (insert_owns attends.owned stage).mp
  have rest : ∀ held : Option Nat, (s.hub.dropHeld held).topics = s.hub.topics ∧
      (s.hub.dropHeld held).wildcardSubscribers = s.hub.wildcardSubscribers := by
    intro held
    cases held <;> exact ⟨rfl, rfl⟩
  refine ⟨attends.owned.insert stage, .inl rfl, fun other r' has => ?_, fun r' has => ?_, attends.keepsUp,
    attends.isOpen⟩
  · obtain ⟨was, stays⟩ := owns has
    obtain ⟨rc, live, kept, known⟩ := attends.attached other r' was
    refine ⟨rc, ?_, kept, BroadcastHub.channelOf_of_topics known fun _ ch found => ⟨ch, ?_, rfl⟩⟩
    · change (s.hub.dropHeld _).bus.receiver r' = _
      cases old : s.subscriptions.get key with
      | none => exact live
      | some r₀ =>
        rw [old] at stays
        exact (if_neg fun same => stays (congrArg some same.symm)).trans live
    · exact (congrArg (fun topics => HashMap.get topics _) (rest _).1).trans found
  · exact (attends.counted r' (owns has).1).trans_eq (rest _).2.symm

theorem subscribe_attends (attends : Attends s) (key : Str)
    (small : key = wildcardTopic → s.hub.wildcardSubscribers + 1 < 2 ^ 64) : Attends (s.subscribe key) := by
  have owns : ∀ {other r}, Owns (s.subscribe key) other r →
      s.subscriptions.get other = some r ∨ other = key ∧ r = s.hub.bus.next := by
    rintro other r (found | holds)
    · exact .inl found
    · cases holds
      exact .inr ⟨rfl, subscribeTopic_fst s.hub key⟩
  have counter : (s.subscribe key).hub.wildcardSubscribers =
      if key = wildcardTopic then s.hub.wildcardSubscribers + 1 else s.hub.wildcardSubscribers := by
    change (s.hub.subscribeTopic key).2.wildcardSubscribers = _
    unfold BroadcastHub.subscribeTopic
    split
    · rename_i all
      exact Nat.mod_eq_of_lt (small all)
    · exact BroadcastHub.subscribe_wildcardSubscribers _ _
  refine ⟨attends.owned.subscribe key, .inr ⟨_, _, rfl⟩, fun other r has => ?_, fun r has => ?_, attends.keepsUp,
    attends.isOpen⟩
  · rcases owns has with found | ⟨rfl, rfl⟩
    · obtain ⟨rc, live, kept, known⟩ := attends.attached other r (.inl found)
      have old := Nat.ne_of_lt (attends.owned.below other r found)
      exact ⟨rc, (BroadcastHub.subscribeTopic_receiver _ _ old).trans live, kept,
        BroadcastHub.subscribeTopic_channelOf known key⟩
    · exact BroadcastHub.subscribeTopic_new s.hub other
  · rw [counter]
    rcases owns has with found | ⟨same, _⟩
    · have before := attends.counted r (.inl found)
      split <;> omega
    · rw [if_pos same.symm]
      exact Nat.succ_pos _

theorem drained_attends (attends : Attends s) (config : StreamConfig) (enabled : Bool) (drain : Drain F) :
    Attends (s.drained config enabled drain) := by
  have owned := drained_owned attends.owned config enabled drain
  unfold drained at owned ⊢
  split at owned <;> rename_i pending
  · rw [if_pos pending]
    refine attends.aside owned rfl rfl rfl rfl fun enabled' drain' drains => ?_
    dsimp only at drains
    split at drains
    · cases drains
    · split at drains <;> cases drains
  · rw [if_neg pending]
    refine attends.aside owned rfl rfl rfl rfl fun enabled' drain' drains => ?_
    dsimp only at drains
    split at drains <;> cases drains
    rfl

/-- Its receiver has missed nothing and is open, so a drain reads a tick from it or leaves it. -/
theorem Attends.receives {config : StreamConfig} {enabled : Bool} {drain : Drain F} {key : Str} {r : Nat}
    (attends : Attends s) (held : s.subscriptions.get key = some r)
    (receives : Receives config s enabled drain key r t) :
    ∃ rc, s.hub.bus.receiver r = some rc ∧ rc.missed = 0 ∧
      ((∃ tick rest, rc.unread = tick :: rest ∧
        t = { s with
          hub := { s.hub with bus := s.hub.bus.update r { rc with unread := rest } }
          fanout := .draining enabled (Drain.take drain tick) }) ∨
      (rc.unread = [] ∧
        t = { s with
          fanout := .draining enabled { drain with current := none, visited := key :: drain.visited } })) := by
  obtain ⟨rc, live, kept, known⟩ := attends.attached key r (.inl held)
  have same : ∀ {rc'}, s.hub.bus.receiver r = some rc' → rc' = rc := by
    intro rc' live'
    rw [live] at live'
    exact (Option.some.inj live').symm
  refine ⟨rc, live, kept, ?_⟩
  cases receives with
  | value live' unread kept' =>
    obtain rfl := same live'
    exact .inl ⟨_, _, unread, rfl⟩
  | lagged live' missed few =>
    obtain rfl := same live'
    exact (missed kept).elim
  | stopped live' missed many =>
    obtain rfl := same live'
    exact (missed kept).elim
  | nothing live' unread kept' =>
    obtain rfl := same live'
    rw [if_pos (BroadcastHub.hasSender_of_channelOf known)]
    exact .inr ⟨unread, rfl⟩

theorem receive_attends {enabled : Bool} {drain : Drain F} {key : Str} {r : Nat} (attends : Attends s)
    (stage : s.fanout = .draining enabled drain) (held : s.subscriptions.get key = some r)
    (receives : Receives setup.config s enabled drain key r t) (owned : Owned t) : Attends t := by
  have isOpen := attends.isOpen enabled drain stage
  obtain ⟨rc, live, kept, ⟨tick, rest, unread, rfl⟩ | ⟨unread, rfl⟩⟩ := attends.receives held receives
  · refine attends.frame owned rfl rfl rfl (fun enabled' drain' drains => ?_) rfl (fun _ _ known => known)
      fun r' rc' live' kept' => ?_
    · cases drains
      unfold Drain.take
      split <;> exact isOpen
    · dsimp only
      rw [Bus.update_receiver]
      split
      · rename_i same
        subst same
        rw [live] at live' ⊢
        cases live'
        exact ⟨_, rfl, kept, rfl⟩
      · exact ⟨rc', live', kept', rfl⟩
  · refine attends.aside owned rfl rfl rfl rfl fun enabled' drain' drains => ?_
    cases drains
    exact isOpen

/-- The reader of a client that stays inserts what it holds. -/
theorem reads_insert (attends : Attends s) (reads : Reads s t) :
    ∃ key r, s.reader = .holding key r ∧ t = s.insert key r := by
  have busy : ∀ stage : ReaderStage, s.reader = stage → stage = .idle ∨ ∃ key r, stage = .holding key r := by
    rintro _ rfl
    exact attends.stays
  cases reads with
  | insert stage free => exact ⟨_, _, stage, rfl⟩
  | takeOut stage free => rcases busy _ stage with idle | ⟨_, _, holds⟩ <;> contradiction
  | count stage => rcases busy _ stage with idle | ⟨_, _, holds⟩ <;> contradiction
  | remove stage => rcases busy _ stage with idle | ⟨_, _, holds⟩ <;> contradiction
  | notify stage => rcases busy _ stage with idle | ⟨_, _, holds⟩ <;> contradiction

theorem Attends.step {e : ClientEvent} (attends : Attends s) (stays : Stays setup s e)
    (h : step setup s e = some t) : Attends t := by
  have owned : Owned t := attends.owned.step h
  cases step_does h with
  | publish line =>
    unfold Client.publish at owned ⊢
    split
    · exact attends
    · rename_i topic row published
      rw [published] at owned
      exact attends.aside owned rfl rfl rfl rfl attends.isOpen
  | publisher address found publishes => exact publisher_attends address attends found stays publishes
  | subscribe key stage => exact subscribe_attends attends key stays
  | unsubscribe key stage => exact stays.elim
  | reader reads =>
    obtain ⟨key, r, holds, rfl⟩ := reads_insert attends reads
    exact insert_attends attends holds
  | look stage => exact attends.aside owned rfl rfl rfl rfl fun _ _ drains => by cases drains; rfl
  | sleep stage => exact attends
  | @visit enabled drain key stage free held fresh =>
    refine attends.aside owned rfl rfl rfl rfl fun _ _ drains => ?_
    cases drains
    exact attends.isOpen enabled drain stage
  | receive stage current held receives => exact receive_attends attends stage held receives owned
  | @finish enabled drain stage free visited =>
    rw [attends.isOpen enabled drain stage]
    exact drained_attends attends _ _ _
  | enable stage => exact attends.aside owned rfl rfl rfl rfl fun _ _ drains => by cases drains; rfl
  | awake stage woken => exact attends.aside owned rfl rfl rfl rfl nofun

end Client
end QuestRouter.Stream
