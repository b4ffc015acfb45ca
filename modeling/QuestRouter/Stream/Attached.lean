import QuestRouter.Stream.Attendance
import QuestRouter.Stream.Disconnect

/-!
# Connections and their channels

In every run each key of a connection's map has a receiver of its own, on the channel that the hub has for the key.
So a published row reaches the receivers of its topic and, where the wildcard counter is positive, those of all
topics, and no others.
-/

namespace QuestRouter.Stream
open Text Data Data.Broadcast

namespace BroadcastHub

variable {ρ τ : Type} {hub hub' : BroadcastHub ρ τ} {topic key : Str} {r : Nat}

/-- The receiver is on the channel of the key. -/
def Listens (hub : BroadcastHub ρ τ) (key : Str) (r : Nat) : Prop :=
  ∃ rc, hub.bus.receiver r = some rc ∧ hub.channelOf key = some rc.channel

theorem Listens.frame (listens : hub.Listens key r)
    (receiver : ∀ rc, hub.bus.receiver r = some rc →
      ∃ rc', hub'.bus.receiver r = some rc' ∧ rc'.channel = rc.channel)
    (channel : ∀ c, hub.channelOf key = some c → hub'.channelOf key = some c) : hub'.Listens key r := by
  obtain ⟨rc, live, known⟩ := listens
  obtain ⟨rc', live', same⟩ := receiver rc live
  exact ⟨rc', live', by rw [same]; exact channel _ known⟩

theorem Listens.lt_next (listens : hub.Listens key r) : r < hub.bus.next := by
  obtain ⟨rc, live, _⟩ := listens
  exact Bus.lt_next live

theorem Listens.unsubscribeWildcard (listens : hub.Listens key r) : hub.unsubscribeWildcard.Listens key r := by
  unfold BroadcastHub.unsubscribeWildcard
  exact listens.frame (fun rc live => ⟨rc, live, rfl⟩) fun _ known =>
    channelOf_of_topics known fun _ ch found => ⟨ch, found, rfl⟩

theorem Listens.dropHeld {held : Option Nat} (listens : hub.Listens key r) (other : held ≠ some r) :
    (hub.dropHeld held).Listens key r := by
  refine listens.frame (fun rc live => ⟨rc, dropHeld_receiver.mpr ⟨other, live⟩, rfl⟩) fun c known => ?_
  cases held <;> exact known

theorem Listens.dropAll {receivers : List Nat} (listens : hub.Listens key r) (others : r ∉ receivers) :
    (hub.dropAll receivers).Listens key r := by
  refine listens.frame (fun rc live => ⟨rc, ?_, rfl⟩) fun c known => known
  change (hub.bus.dropAll receivers).receiver r = some rc
  rw [Bus.dropAll_receiver, if_neg others, live]

/-- A topic that is listened to is not removed. -/
theorem Listens.removeSubscriber (listens : hub.Listens key r) (topic : Str) :
    (hub.removeSubscriber topic).Listens key r := by
  unfold BroadcastHub.removeSubscriber
  split
  · rename_i lacks
    obtain ⟨ch, found, nobody⟩ := lacksReceivers_iff.mp lacks
    obtain ⟨rc, live, known⟩ := listens
    refine ⟨rc, live, ?_⟩
    by_cases all : key = wildcardTopic
    · rw [all, channelOf_wildcard] at known ⊢
      exact known
    · rw [channelOf_topic all] at known ⊢
      rw [removeTopic_get, if_neg, known]
      rintro rfl
      rw [found] at known
      exact nobody r rc live (Option.some.inj known).symm
  · exact listens

theorem Listens.cleanup (listens : hub.Listens key r) (topics : List Str) : (hub.cleanup topics).Listens key r := by
  unfold BroadcastHub.cleanup
  induction topics generalizing hub with
  | nil => exact listens
  | cons topic topics ih =>
    rw [List.foldl_cons]
    refine ih ?_
    split
    · exact listens.unsubscribeWildcard
    · exact listens.removeSubscriber topic

theorem Listens.unsubscribeTopic {held : Option Nat} (listens : hub.Listens key r) (other : held ≠ some r)
    (topic : Str) : (hub.unsubscribeTopic held topic).Listens key r := by
  rw [unsubscribeTopic_eq]
  refine Listens.removeSubscriber (Listens.dropHeld ?_ other) topic
  split
  · exact listens.unsubscribeWildcard
  · exact listens

theorem Listens.subscribeTopic (listens : hub.Listens key r) (topic : Str) :
    (hub.subscribeTopic topic).2.Listens key r := by
  have old : r ≠ hub.bus.next := Nat.ne_of_lt listens.lt_next
  refine listens.frame (fun rc live => ⟨rc, ?_, rfl⟩) fun c known => subscribeTopic_channelOf known topic
  rw [subscribeTopic_receiver hub topic old, live]

theorem listens_new (hub : BroadcastHub ρ τ) (topic : Str) :
    (hub.subscribeTopic topic).2.Listens topic (hub.subscribeTopic topic).1 := by
  obtain ⟨rc, live, _, known⟩ := subscribeTopic_new hub topic
  rw [Client.subscribeTopic_fst]
  exact ⟨rc, live, known⟩

theorem Listens.sendToTopic (listens : hub.Listens key r) (config : StreamConfig) (topic : Str) (row : ρ) (tick : τ) :
    (hub.sendToTopic config topic row tick).Listens key r := by
  refine listens.frame (fun rc live => ?_) fun c known => sendToTopic_channelOf known config topic row tick
  rw [sendToTopic_bus]
  exact Bus.send_live live _ _ _

theorem Listens.sendWildcard (listens : hub.Listens key r) (config : StreamConfig) (tick : τ) :
    (hub.sendWildcard config tick).Listens key r :=
  listens.frame (fun _ live => Bus.send_live live _ _ _) fun _ known => known

theorem Listens.publish {F : Type} {hub : BroadcastHub (IlpRow F) (StreamTick F)} (listens : hub.Listens key r)
    (setup : StreamSetup F) (line : Bytes) : (hub.publish setup line).Listens key r := by
  unfold BroadcastHub.publish
  split
  · exact listens
  split
  · exact listens
  rename_i topic row _
  dsimp only
  split
  · exact listens
  split
  · exact listens
  rename_i wire _
  have sent : (if 0 < hub.topicReceiverCount topic then
      hub.sendToTopic setup.config topic row ⟨row, wire⟩ else hub).Listens key r := by
    split
    · exact listens.sendToTopic setup.config topic row ⟨row, wire⟩
    · exact listens
  split
  · exact sent.sendWildcard setup.config ⟨row, wire⟩
  · exact sent

/-! ### Whom a row reaches -/

section
variable {F : Type} {setup : StreamSetup F} {hub : BroadcastHub (IlpRow F) (StreamTick F)} {line wire : Bytes}
  {row : IlpRow F}

/-- A tick is sent to its topic if somebody listens to it, and to all topics if the counter says so. -/
theorem publish_bus (shown : setup.topicRow line = some (topic, row)) (encoded : setup.encodeTick row = some wire) :
    (hub.publish setup line).bus =
      let capacity := setup.config.capacity
      let bus := if 0 < hub.topicReceiverCount topic then
        hub.bus.send capacity (hub.getOrCreateTopic topic).1.tx ⟨row, wire⟩ else hub.bus
      if 0 < hub.wildcardSubscribers then bus.send capacity wildcard ⟨row, wire⟩ else bus := by
  unfold publish
  split
  · rename_i nobody
    rw [Bool.not_eq_true', ← Bool.not_eq_true, hasSubscribers_iff, not_or] at nobody
    have alone : ¬ 0 < hub.topicReceiverCount topic := by
      rw [topicReceiverCount_pos]
      rintro ⟨ch, r, rc, found, live, on⟩
      exact nobody.2 ⟨topic, ch, r, rc, found, live, on⟩
    dsimp only
    rw [if_neg alone, if_neg nobody.1]
  · rw [shown]
    dsimp only
    split
    · rename_i nobody
      rw [if_neg nobody.2, if_neg nobody.1]
    · rw [encoded]
      dsimp only
      by_cases topicSubs : 0 < hub.topicReceiverCount topic <;> by_cases all : 0 < hub.wildcardSubscribers <;>
        simp [topicSubs, all, sendWildcard, sendToTopic_bus]

/-- The key is the row's topic, or stands for all topics while the counter is positive. -/
def Reaches (hub : BroadcastHub ρ τ) (topic key : Str) : Prop :=
  if key = wildcardTopic then 0 < hub.wildcardSubscribers else key = topic

instance Reaches.decidable (hub : BroadcastHub ρ τ) (topic key : Str) : Decidable (hub.Reaches topic key) :=
  inferInstanceAs (Decidable (if key = wildcardTopic then 0 < hub.wildcardSubscribers else key = topic))

theorem reaches_of_wildcard {hub : BroadcastHub ρ τ} (all : key = wildcardTopic) :
    hub.Reaches topic key ↔ 0 < hub.wildcardSubscribers := by
  rw [Reaches, if_pos all]

theorem reaches_of_topic {hub : BroadcastHub ρ τ} (plain : key ≠ wildcardTopic) :
    hub.Reaches topic key ↔ key = topic := by
  rw [Reaches, if_neg plain]

/-- The channel of a key for all topics is the wildcard channel, and that of another key is not. -/
theorem WellFormed.channel_iff (wf : hub.WellFormed) {c : Nat} (known : hub.channelOf key = some c) :
    c = wildcard ↔ key = wildcardTopic := by
  by_cases all : key = wildcardTopic
  · rw [all, channelOf_wildcard] at known
    exact iff_of_true (Option.some.inj known).symm all
  · rw [channelOf_topic all] at known
    obtain ⟨ch, found, rfl⟩ := Option.map_eq_some_iff.mp known
    exact iff_of_false (Nat.ne_of_lt (wf.channel key ch found).1).symm all

/-- The first of the two sends reaches those of the topic. -/
theorem topic_receiver (topic : Str) (wf : hub.WellFormed) {rc : Receiver (StreamTick F)}
    (live : hub.bus.receiver r = some rc) (known : hub.channelOf key = some rc.channel) (capacity : Nat) (tick : StreamTick F) :
    (if 0 < hub.topicReceiverCount topic then hub.bus.send capacity (hub.getOrCreateTopic topic).1.tx tick
      else hub.bus).receiver r = some (if key ≠ wildcardTopic ∧ key = topic then rc.deliver capacity tick else rc) := by
  split
  · rename_i somebody
    obtain ⟨ch, _, _, found, _⟩ := topicReceiverCount_pos.mp somebody
    have same : rc.channel = ch.tx ↔ key ≠ wildcardTopic ∧ key = topic := by
      constructor
      · intro on
        have plain : key ≠ wildcardTopic := by
          rw [Ne, ← wf.channel_iff known, on]
          exact (Nat.ne_of_lt (wf.channel topic ch found).1).symm
        rw [channelOf_topic plain] at known
        obtain ⟨ch', found', tx⟩ := Option.map_eq_some_iff.mp known
        exact ⟨plain, wf.apart key topic ch' ch found' found (tx.trans on)⟩
      · rintro ⟨plain, rfl⟩
        rw [channelOf_topic plain, found] at known
        exact (Option.some.inj known).symm
    rw [getOrCreateTopic_of_get found, Bus.send_receiver, live, Option.map_some]
    simp only [same]
  · rename_i nobody
    rw [live, if_neg]
    rintro ⟨plain, rfl⟩
    rw [channelOf_topic plain] at known
    obtain ⟨ch, found, tx⟩ := Option.map_eq_some_iff.mp known
    exact nobody (topicReceiverCount_pos.mpr ⟨ch, r, rc, found, live, tx.symm⟩)

theorem publish_receiver (wf : hub.WellFormed) (shown : setup.topicRow line = some (topic, row))
    (encoded : setup.encodeTick row = some wire) {rc : Receiver (StreamTick F)}
    (live : hub.bus.receiver r = some rc) (known : hub.channelOf key = some rc.channel) :
    (hub.publish setup line).bus.receiver r =
      some (if hub.Reaches topic key then rc.deliver setup.config.capacity ⟨row, wire⟩ else rc) := by
  have first := topic_receiver topic wf live known setup.config.capacity ⟨row, wire⟩
  rw [publish_bus shown encoded]
  dsimp only
  by_cases all : key = wildcardTopic
  · have channel := (wf.channel_iff known).mpr all
    have notOwn : ¬ (key ≠ wildcardTopic ∧ key = topic) := fun own => own.1 all
    rw [if_neg notOwn] at first
    by_cases counted : 0 < hub.wildcardSubscribers
    · rw [if_pos counted, if_pos ((reaches_of_wildcard all).mpr counted), Bus.send_receiver, first, Option.map_some,
        if_pos channel]
    · rw [if_neg counted, if_neg (mt (reaches_of_wildcard all).mp counted), first]
  · have other : rc.channel ≠ wildcard := mt (wf.channel_iff known).mp all
    have reaches : hub.Reaches topic key ↔ key ≠ wildcardTopic ∧ key = topic :=
      (reaches_of_topic all).trans (and_iff_right all).symm
    simp only [reaches]
    split
    · rw [Bus.send_receiver, first, Option.map_some, if_neg]
      split
      · rwa [Bus.deliver_channel]
      · exact other
    · exact first

end
end BroadcastHub

namespace StreamServer

variable {F : Type} {setup : StreamSetup F} {s t : StreamServer F} {i j : Nat} {conn conn' : Connection}
  {key topic : Str} {r : Nat}

/-- The connection has this receiver for the key. -/
def HeldBy (s : StreamServer F) (i : Nat) (key : Str) (r : Nat) : Prop :=
  ∃ conn, s.connections[i]? = some conn ∧ conn.subscriptions.get key = some r

theorem heldBy_iff (found : s.connections[i]? = some conn) (key : Str) (r : Nat) :
    s.HeldBy i key r ↔ conn.subscriptions.get key = some r := by
  constructor
  · rintro ⟨_, there, has⟩
    cases found.symm.trans there
    exact has
  · exact fun has => ⟨conn, found, has⟩

structure Attached (s : StreamServer F) : Prop where
  wellFormed : s.hub.WellFormed
  listens : ∀ i key r, s.HeldBy i key r → s.hub.Listens key r
  apart : ∀ i key j key' r, s.HeldBy i key r → s.HeldBy j key' r → i = j ∧ key = key'

/-! ### Receivers of a connection after a step -/

theorem heldBy_replaced (found : s.connections[i]? = some conn) (hub : BroadcastHub (IlpRow F) (StreamTick F))
    (conn' : Connection) : HeldBy ⟨hub, s.connections.set i conn'⟩ j key r ↔
      if j = i then conn'.subscriptions.get key = some r else s.HeldBy j key r := by
  unfold HeldBy
  dsimp only
  rw [Machine.getElem?_replaced found]
  split
  · rename_i same
    refine ⟨?_, fun has => ⟨conn', rfl, has⟩⟩
    rintro ⟨_, there, has⟩
    cases there
    exact has
  · exact Iff.rfl

/-- A step after which connections hold no new receivers. -/
theorem Attached.frame (attached : Attached s) (wellFormed : t.hub.WellFormed)
    (held : ∀ i key r, t.HeldBy i key r → s.HeldBy i key r)
    (kept : ∀ i key r, t.HeldBy i key r → s.hub.Listens key r → t.hub.Listens key r) : Attached t :=
  ⟨wellFormed, fun i key r has => kept i key r has (attached.listens i key r (held i key r has)),
    fun i key j key' r first second => attached.apart i key j key' r (held i key r first) (held j key' r second)⟩

theorem settle_attached (attached : Attached s) (found : s.connections[i]? = some conn)
    {hub : BroadcastHub (IlpRow F) (StreamTick F)} (within : BroadcastHub.Within s.hub hub)
    (listens : ∀ key r, s.hub.Listens key r → hub.Listens key r)
    (same : conn'.subscriptions = conn.subscriptions) : Attached (s.settle i hub conn') := by
  have wellFormed := attached.wellFormed.within within
  have mine : ∀ {key r}, conn'.subscriptions.get key = some r → s.HeldBy i key r :=
    fun has => ⟨conn, found, same ▸ has⟩
  unfold settle
  split
  · refine attached.frame (wellFormed.within (BroadcastHub.dropAll_within hub _)) (fun j key r has => ?_)
      fun j key r has heard => ?_
    · rw [heldBy_replaced found] at has
      split at has
      · cases has
      · exact has
    · rw [heldBy_replaced found] at has
      split at has
      · cases has
      · rename_i other
        refine (listens key r heard).dropAll fun dropped => ?_
        obtain ⟨⟨key', r'⟩, entry, rfl⟩ := List.mem_map.mp dropped
        exact other (attached.apart j key i key' r' has (mine (AList.mem_lookup_iff.mpr entry))).1
  · refine attached.frame wellFormed (fun j key r has => ?_) fun _ key r _ heard => listens key r heard
    rw [heldBy_replaced found] at has
    split at has
    · rename_i here
      rw [here]
      exact mine has
    · exact has

theorem subscribe_heldBy (found : s.connections[i]? = some conn) (topic : Str) :
    (s.subscribe i conn topic).HeldBy j key r ↔
      if j = i ∧ key = topic then r = (s.hub.subscribeTopic topic).1 else s.HeldBy j key r := by
  unfold subscribe
  rw [heldBy_replaced found]
  dsimp only
  have here := (heldBy_iff found key r).symm
  by_cases same : j = i
  · subst same
    by_cases named : key = topic
    · subst named
      simp [eq_comm]
    · rw [if_pos rfl, HashMap.get_insert_ne _ _ named, if_neg fun both => named both.2]
      exact here
  · rw [if_neg same, if_neg fun both => same both.1]

theorem subscribe_attached (attached : Attached s) (found : s.connections[i]? = some conn) (topic : Str) :
    Attached (s.subscribe i conn topic) := by
  have within := (s.hub.subscribeTopic topic).2.dropHeld_within (conn.subscriptions.get topic)
  have fresh : ∀ {j key r}, s.HeldBy j key r → r ≠ (s.hub.subscribeTopic topic).1 := by
    intro j key r has
    rw [Client.subscribeTopic_fst]
    exact Nat.ne_of_lt (attached.listens j key r has).lt_next
  have replaced : ∀ {r}, conn.subscriptions.get topic = some r → s.HeldBy i topic r := fun has => ⟨conn, found, has⟩
  refine ⟨(attached.wellFormed.subscribeTopic topic).within within, fun j key r has => ?_,
    fun j key j' key' r first second => ?_⟩
  · rw [subscribe_heldBy found] at has
    split at has
    · rename_i named
      rw [named.2, has]
      exact (BroadcastHub.listens_new s.hub topic).dropHeld fun old => fresh (replaced old) rfl
    · rename_i other
      refine ((attached.listens j key r has).subscribeTopic topic).dropHeld fun old => ?_
      exact other (attached.apart j key i topic r has (replaced old))
  · rw [subscribe_heldBy found] at first second
    split at first <;> split at second
    · rename_i named named'
      exact ⟨named.1.trans named'.1.symm, named.2.trans named'.2.symm⟩
    · exact (fresh second first).elim
    · exact (fresh first second).elim
    · exact attached.apart j key j' key' r first second

theorem unsubscribe_heldBy (found : s.connections[i]? = some conn) (topic : Str) :
    (s.unsubscribe i conn topic).HeldBy j key r ↔ ¬ (j = i ∧ key = topic) ∧ s.HeldBy j key r := by
  unfold unsubscribe
  rw [heldBy_replaced found]
  dsimp only
  have here := (heldBy_iff found key r).symm
  by_cases same : j = i
  · subst same
    rw [if_pos rfl, HashMap.get_erase]
    by_cases named : key = topic
    · simp [named]
    · rw [if_neg named, here]
      simp [named]
  · simp [same]

theorem unsubscribe_attached (attached : Attached s) (found : s.connections[i]? = some conn) (topic : Str) :
    Attached (s.unsubscribe i conn topic) := by
  refine attached.frame (attached.wellFormed.within (s.hub.unsubscribeTopic_within _ topic))
    (fun j key r has => ((unsubscribe_heldBy found topic).mp has).2) fun j key r has heard => ?_
  obtain ⟨other, has⟩ := (unsubscribe_heldBy found topic).mp has
  refine heard.unsubscribeTopic (fun old => ?_) topic
  exact other (attached.apart j key i topic r has ⟨conn, found, old⟩)

theorem Attached.step {e : SocketEvent} (attached : Attached s) (h : step setup s e = some t) : Attached t := by
  cases step_does h with
  | connect =>
    refine attached.frame attached.wellFormed (fun j key r has => ?_) fun _ _ _ _ heard => heard
    obtain ⟨conn, there, has⟩ := has
    dsimp only at there
    rcases Nat.lt_or_ge j s.connections.length with old | new
    · rw [List.getElem?_append_left old] at there
      exact ⟨conn, there, has⟩
    · rw [List.getElem?_append_right new] at there
      rw [List.mem_singleton.mp (List.mem_of_getElem? there)] at has
      cases has
  | publish line =>
    exact attached.frame (attached.wellFormed.within (BroadcastHub.publish_within setup s.hub line))
      (fun _ _ _ has => has) fun _ _ _ _ heard => heard.publish setup line
  | @subscribe i conn found reads topic => exact subscribe_attached attached found topic
  | @unsubscribe i conn found reads topic => exact unsubscribe_attached attached found topic
  | @readerEnds i conn found reads =>
    exact settle_attached attached found (.refl s.hub) (fun _ _ heard => heard) rfl
  | @fanoutEnds i conn found forwards =>
    exact settle_attached attached found (.refl s.hub) (fun _ _ heard => heard) rfl
  | @close i conn found here ended =>
    exact settle_attached attached found (s.hub.cleanup_within _) (fun _ _ heard => heard.cleanup _) rfl

theorem attached_start : Attached (start : StreamServer F) := by
  have none : ∀ {i key r}, ¬ (start : StreamServer F).HeldBy i key r := by
    rintro i key r ⟨conn, there, _⟩
    cases there
  exact ⟨BroadcastHub.wellFormed_new, fun _ _ _ has => (none has).elim, fun _ _ _ _ _ has => (none has).elim⟩

end StreamServer
end QuestRouter.Stream
