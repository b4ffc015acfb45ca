import QuestRouter.Stream.Hub

/-!
# Channels of a hub

Each topic has a channel of its own, and none shares the wildcard channel.
-/

namespace QuestRouter.Stream
open Text Data.Broadcast

namespace BroadcastHub

variable {ρ τ : Type} {hub : BroadcastHub ρ τ} {topic other : Str}

/-- The channels of the topics are numbered apart, and receivers listen to channels that were made. -/
structure WellFormed (hub : BroadcastHub ρ τ) : Prop where
  channel : ∀ t ch, hub.topics.get t = some ch → wildcard < ch.tx ∧ ch.tx < hub.nextChannel
  apart : ∀ t u ch ch', hub.topics.get t = some ch → hub.topics.get u = some ch' → ch.tx = ch'.tx → t = u
  receivers : ∀ r rc, hub.bus.receiver r = some rc → rc.channel < hub.nextChannel
  made : wildcard < hub.nextChannel

theorem wellFormed_new : (new : BroadcastHub ρ τ).WellFormed :=
  ⟨nofun, nofun, nofun, Nat.one_pos⟩

/-- Only channels and receivers matter. -/
theorem WellFormed.of_frame {hub' : BroadcastHub ρ τ} (wf : hub.WellFormed) (next : hub'.nextChannel = hub.nextChannel)
    (topics : ∀ t ch, hub'.topics.get t = some ch → ∃ ch', hub.topics.get t = some ch' ∧ ch.tx = ch'.tx)
    (receivers : ∀ r rc, hub'.bus.receiver r = some rc →
      rc.channel < hub.nextChannel) : hub'.WellFormed := by
  refine ⟨fun t ch found => ?_, fun t u ch ch' first second same => ?_, fun r rc live => ?_, next ▸ wf.made⟩
  · obtain ⟨before, was, tx⟩ := topics t ch found
    rw [tx, next]
    exact wf.channel t before was
  · obtain ⟨before, was, tx⟩ := topics t ch first
    obtain ⟨before', was', tx'⟩ := topics u ch' second
    exact wf.apart t u before before' was was' (by rw [← tx, ← tx', same])
  · rw [next]
    exact receivers r rc live

/-- The later hub has no topic, channel or receiver that the earlier one has not. -/
structure Within (hub hub' : BroadcastHub ρ τ) : Prop where
  next : hub'.nextChannel = hub.nextChannel
  topics : ∀ t ch, hub'.topics.get t = some ch → ∃ ch', hub.topics.get t = some ch' ∧ ch.tx = ch'.tx
  receivers : ∀ r rc, hub'.bus.receiver r = some rc →
    ∃ rc', hub.bus.receiver r = some rc' ∧ rc.channel = rc'.channel

theorem Within.refl (hub : BroadcastHub ρ τ) : Within hub hub :=
  ⟨rfl, fun _ ch found => ⟨ch, found, rfl⟩, fun _ rc live => ⟨rc, live, rfl⟩⟩

theorem Within.trans {a b c : BroadcastHub ρ τ} (first : Within a b) (second : Within b c) : Within a c := by
  refine ⟨second.next.trans first.next, fun t ch found => ?_, fun r rc live => ?_⟩
  · obtain ⟨ch', was, tx⟩ := second.topics t ch found
    obtain ⟨ch'', was', tx'⟩ := first.topics t ch' was
    exact ⟨ch'', was', tx.trans tx'⟩
  · obtain ⟨rc', lived, channel⟩ := second.receivers r rc live
    obtain ⟨rc'', lived', channel'⟩ := first.receivers r rc' lived
    exact ⟨rc'', lived', channel.trans channel'⟩

theorem WellFormed.within {hub' : BroadcastHub ρ τ} (wf : hub.WellFormed) (within : Within hub hub') :
    hub'.WellFormed := by
  refine wf.of_frame within.next within.topics fun r rc live => ?_
  obtain ⟨rc', lived, channel⟩ := within.receivers r rc live
  rw [channel]
  exact wf.receivers r rc' lived

/-! ### Getting or creating a topic -/

theorem getOrCreateTopic_get (hub : BroadcastHub ρ τ) (topic : Str) :
    (hub.getOrCreateTopic topic).2.topics.get topic = some (hub.getOrCreateTopic topic).1 := by
  unfold getOrCreateTopic
  split
  · rename_i channel found
    exact found
  · exact HashMap.get_insert _ _ _

theorem getOrCreateTopic_of_get {ch : TopicChannel ρ} (found : hub.topics.get topic = some ch) :
    hub.getOrCreateTopic topic = (ch, hub) := by
  unfold getOrCreateTopic
  rw [found]

theorem getOrCreateTopic_get_ne (different : other ≠ topic) :
    (hub.getOrCreateTopic topic).2.topics.get other = hub.topics.get other := by
  unfold getOrCreateTopic
  split
  · rfl
  · exact HashMap.get_insert_ne _ _ different

theorem getOrCreateTopic_keeps {ch : TopicChannel ρ} (found : hub.topics.get other = some ch) (topic : Str) :
    (hub.getOrCreateTopic topic).2.topics.get other = some ch := by
  by_cases same : other = topic
  · subst same
    rw [getOrCreateTopic_of_get found]
    exact found
  · rw [getOrCreateTopic_get_ne same, found]

@[simp] theorem getOrCreateTopic_bus (hub : BroadcastHub ρ τ) (topic : Str) :
    (hub.getOrCreateTopic topic).2.bus = hub.bus := by
  unfold getOrCreateTopic
  split <;> rfl

@[simp] theorem getOrCreateTopic_wildcardSubscribers (hub : BroadcastHub ρ τ) (topic : Str) :
    (hub.getOrCreateTopic topic).2.wildcardSubscribers = hub.wildcardSubscribers := by
  unfold getOrCreateTopic
  split <;> rfl

theorem WellFormed.getOrCreateTopic (wf : hub.WellFormed) (topic : Str) :
    (hub.getOrCreateTopic topic).2.WellFormed := by
  unfold BroadcastHub.getOrCreateTopic
  split
  · exact wf
  · rename_i absent
    have old : ∀ t ch, (hub.topics.insert topic ⟨hub.nextChannel, []⟩).lookup t = some ch →
        t = topic ∧ ch.tx = hub.nextChannel ∨ t ≠ topic ∧ hub.topics.get t = some ch := by
      intro t ch found
      by_cases same : t = topic
      · subst same
        rw [AList.lookup_insert] at found
        cases found
        exact .inl ⟨rfl, rfl⟩
      · rw [AList.lookup_insert_ne same] at found
        exact .inr ⟨same, found⟩
    refine ⟨fun t ch found => ?_, fun t u ch ch' first second same => ?_, fun r rc live => ?_,
      Nat.lt_succ_of_lt wf.made⟩
    · rcases old t ch found with ⟨_, tx⟩ | ⟨_, was⟩
      · rw [tx]
        exact ⟨wf.made, Nat.lt_succ_self _⟩
      · exact ⟨(wf.channel t ch was).1, Nat.lt_succ_of_lt (wf.channel t ch was).2⟩
    · rcases old t ch first with ⟨rfl, tx⟩ | ⟨_, was⟩ <;> rcases old u ch' second with ⟨rfl, tx'⟩ | ⟨_, was'⟩
      · rfl
      · exact absurd (wf.channel u ch' was').2 (by omega)
      · exact absurd (wf.channel t ch was).2 (by omega)
      · exact wf.apart t u ch ch' was was' same
    · exact Nat.lt_succ_of_lt (wf.receivers r rc live)

/-! ### Subscribing -/

@[simp] theorem subscribe_fst (hub : BroadcastHub ρ τ) (topic : Str) : (hub.subscribe topic).1 = hub.bus.next := by
  unfold subscribe
  simp

@[simp] theorem subscribe_topics (hub : BroadcastHub ρ τ) (topic : Str) :
    (hub.subscribe topic).2.topics = (hub.getOrCreateTopic topic).2.topics := rfl

theorem subscribe_bus (hub : BroadcastHub ρ τ) (topic : Str) :
    (hub.subscribe topic).2.bus = hub.bus.subscribe (hub.getOrCreateTopic topic).1.tx := by
  unfold subscribe
  simp

@[simp] theorem subscribe_wildcardSubscribers (hub : BroadcastHub ρ τ) (topic : Str) :
    (hub.subscribe topic).2.wildcardSubscribers = hub.wildcardSubscribers := by
  unfold subscribe
  simp

theorem WellFormed.subscribe (wf : hub.WellFormed) (topic : Str) : (hub.subscribe topic).2.WellFormed := by
  have created := wf.getOrCreateTopic topic
  refine created.of_frame rfl (fun t ch found => ⟨ch, found, rfl⟩) fun r rc live => ?_
  rw [subscribe_bus, Bus.subscribe_receiver] at live
  split at live
  · cases live
    exact (created.channel topic _ (getOrCreateTopic_get hub topic)).2
  · exact created.receivers r rc (by rw [getOrCreateTopic_bus]; exact live)

theorem WellFormed.subscribeWildcard (wf : hub.WellFormed) : hub.subscribeWildcard.2.WellFormed := by
  refine wf.of_frame rfl (fun t ch found => ⟨ch, found, rfl⟩) fun r rc live => ?_
  change (hub.bus.subscribe wildcard).receiver r = some rc at live
  rw [Bus.subscribe_receiver] at live
  split at live
  · cases live
    exact wf.made
  · exact wf.receivers r rc live

theorem dropReceiver_within (hub : BroadcastHub ρ τ) (r : Nat) : Within hub (hub.dropReceiver r) := by
  refine ⟨rfl, fun t ch found => ⟨ch, found, rfl⟩, fun r' rc live => ?_⟩
  change (hub.bus.drop r).receiver r' = some rc at live
  rw [Bus.drop_receiver] at live
  split at live
  · cases live
  · exact ⟨rc, live, rfl⟩

/-! ### Removing a topic -/

theorem removeTopic_get (hub : BroadcastHub ρ τ) (topic other : Str) :
    (hub.removeTopic topic).topics.get other = if other = topic then none else hub.topics.get other :=
  HashMap.get_erase _ _ _

theorem removeTopic_within (hub : BroadcastHub ρ τ) (topic : Str) : Within hub (hub.removeTopic topic) := by
  refine ⟨rfl, fun t ch found => ?_, fun _ rc live => ⟨rc, live, rfl⟩⟩
  rw [removeTopic_get] at found
  split at found
  · cases found
  · exact ⟨ch, found, rfl⟩

theorem removeSubscriber_within (hub : BroadcastHub ρ τ) (topic : Str) : Within hub (hub.removeSubscriber topic) := by
  unfold removeSubscriber
  split
  · exact removeTopic_within hub topic
  · exact .refl hub

theorem lacksReceivers_iff : hub.lacksReceivers topic = true ↔
    ∃ ch, hub.topics.get topic = some ch ∧ ∀ r rc, hub.bus.receiver r = some rc → rc.channel ≠ ch.tx := by
  unfold lacksReceivers
  cases found : hub.topics.get topic with
  | none => simp
  | some ch => simp [Bus.receiverCount_eq_zero]

/-! ### Sending -/

theorem sendToTopic_bus (config : StreamConfig) (hub : BroadcastHub ρ τ) (topic : Str) (row : ρ) (tick : τ) :
    (hub.sendToTopic config topic row tick).bus =
      hub.bus.send config.capacity (hub.getOrCreateTopic topic).1.tx tick := by
  unfold sendToTopic
  dsimp only
  rw [getOrCreateTopic_bus]
  split <;> rfl

@[simp] theorem sendToTopic_wildcardSubscribers (config : StreamConfig) (hub : BroadcastHub ρ τ) (topic : Str)
    (row : ρ) (tick : τ) : (hub.sendToTopic config topic row tick).wildcardSubscribers = hub.wildcardSubscribers := by
  unfold sendToTopic
  dsimp only
  split <;> simp

/-- A send gives topics no other channels. -/
theorem sendToTopic_get (config : StreamConfig) (hub : BroadcastHub ρ τ) (topic other : Str) (row : ρ) (tick : τ) :
    ((hub.sendToTopic config topic row tick).topics.get other).map TopicChannel.tx =
      ((hub.getOrCreateTopic topic).2.topics.get other).map TopicChannel.tx := by
  unfold sendToTopic
  dsimp only
  split
  · by_cases same : other = topic
    · subst same
      rw [HashMap.get_insert, getOrCreateTopic_get]
      rfl
    · rw [HashMap.get_insert_ne _ _ same]
  · rfl

/-- Topics stay, with the channels they have. -/
theorem sendToTopic_keeps {ch : TopicChannel ρ} (found : hub.topics.get other = some ch) (config : StreamConfig)
    (topic : Str) (row : ρ) (tick : τ) :
    ∃ ch', (hub.sendToTopic config topic row tick).topics.get other = some ch' ∧ ch'.tx = ch.tx := by
  have tx := sendToTopic_get config hub topic other row tick
  rw [getOrCreateTopic_keeps found topic] at tx
  exact Option.map_eq_some_iff.mp tx

@[simp] theorem sendToTopic_nextChannel (config : StreamConfig) (hub : BroadcastHub ρ τ) (topic : Str) (row : ρ)
    (tick : τ) : (hub.sendToTopic config topic row tick).nextChannel = (hub.getOrCreateTopic topic).2.nextChannel := by
  unfold sendToTopic
  dsimp only
  split <;> rfl

theorem sendToTopic_within_created (config : StreamConfig) (hub : BroadcastHub ρ τ) (topic : Str) (row : ρ)
    (tick : τ) : Within (hub.getOrCreateTopic topic).2 (hub.sendToTopic config topic row tick) := by
  refine ⟨sendToTopic_nextChannel .., fun t ch found => ?_, fun r rc live => ?_⟩
  · have tx := sendToTopic_get config hub topic t row tick
    rw [found] at tx
    obtain ⟨before, was, same⟩ := Option.map_eq_some_iff.mp tx.symm
    exact ⟨before, was, same.symm⟩
  · rw [sendToTopic_bus] at live
    rw [getOrCreateTopic_bus]
    exact Bus.live_of_send live

/-- A send to a topic that there is. -/
theorem sendToTopic_within {ch : TopicChannel ρ} (found : hub.topics.get topic = some ch) (config : StreamConfig)
    (row : ρ) (tick : τ) : Within hub (hub.sendToTopic config topic row tick) := by
  have within := sendToTopic_within_created config hub topic row tick
  rw [getOrCreateTopic_of_get found] at within
  exact within

theorem WellFormed.sendToTopic (wf : hub.WellFormed) (config : StreamConfig) (topic : Str) (row : ρ) (tick : τ) :
    (hub.sendToTopic config topic row tick).WellFormed :=
  (wf.getOrCreateTopic topic).within (sendToTopic_within_created config hub topic row tick)

theorem sendWildcard_within (config : StreamConfig) (hub : BroadcastHub ρ τ) (tick : τ) :
    Within hub (hub.sendWildcard config tick) :=
  ⟨rfl, fun _ ch found => ⟨ch, found, rfl⟩, fun _ _ live => Bus.live_of_send live⟩

/-! ### Subscribers -/

theorem hasSubscribers_iff : hub.hasSubscribers = true ↔ 0 < hub.wildcardSubscribers ∨
    ∃ t ch r rc, hub.topics.get t = some ch ∧ hub.bus.receiver r = some rc ∧ rc.channel = ch.tx := by
  unfold hasSubscribers
  rw [Bool.or_eq_true, decide_eq_true_eq, List.any_eq_true]
  refine or_congr Iff.rfl ⟨?_, ?_⟩
  · rintro ⟨⟨t, ch⟩, member, counted⟩
    obtain ⟨r, rc, live, on⟩ := Bus.receiverCount_pos.mp (of_decide_eq_true counted)
    exact ⟨t, ch, r, rc, AList.mem_lookup_iff.mpr member, live, on⟩
  · rintro ⟨t, ch, r, rc, found, live, on⟩
    exact ⟨⟨t, ch⟩, AList.mem_lookup_iff.mp found, decide_eq_true (Bus.receiverCount_pos.mpr ⟨r, rc, live, on⟩)⟩

theorem topicReceiverCount_pos : 0 < hub.topicReceiverCount topic ↔
    ∃ ch r rc, hub.topics.get topic = some ch ∧ hub.bus.receiver r = some rc ∧ rc.channel = ch.tx := by
  unfold topicReceiverCount
  cases found : hub.topics.get topic with
  | none => simp
  | some ch =>
    rw [Option.map_some, Option.getD_some, Bus.receiverCount_pos]
    constructor
    · rintro ⟨r, rc, live, on⟩
      exact ⟨ch, r, rc, rfl, live, on⟩
    · rintro ⟨ch', r, rc, same, live, on⟩
      cases same
      exact ⟨r, rc, live, on⟩

theorem publish_within {F : Type} (setup : StreamSetup F) (hub : BroadcastHub (IlpRow F) (StreamTick F))
    (line : Bytes) : Within hub (hub.publish setup line) := by
  unfold publish
  split
  · exact .refl hub
  split
  · exact .refl hub
  rename_i topic row _
  dsimp only
  split
  · exact .refl hub
  split
  · exact .refl hub
  rename_i wire _
  have sent : Within hub (if 0 < hub.topicReceiverCount topic then
      hub.sendToTopic setup.config topic row ⟨row, wire⟩ else hub) := by
    split
    · rename_i subscribed
      obtain ⟨ch, _, _, found, _⟩ := topicReceiverCount_pos.mp subscribed
      exact sendToTopic_within found _ _ _
    · exact .refl hub
  split
  · exact sent.trans (sendWildcard_within _ _ _)
  · exact sent

end BroadcastHub

/-- Rows of one broadcast table, with integer fields. -/
def tradesSetup : StreamSetup Empty :=
  ⟨.default, .fromConfig [⟨"trades".toList, true, none⟩], fun _ => none, fun _ => some []⟩

def trade : Bytes := asBytes "trades,symbol=A p=1i 1\n".toList

def tradeRow : IlpRow Empty :=
  ⟨"trades".toList, [("symbol".toList, "A".toList)], [("p".toList, .integer 1)], some 1⟩

end QuestRouter.Stream
