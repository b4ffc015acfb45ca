import QuestRouter.Stream.WildcardCount

/-!
# After the last disconnect

The cleanup of a connection finds its own receivers still in its map, so it removes no topic that the
connection holds. Only connections that gave up all their topics before leave the hub as they found it.
-/

namespace QuestRouter.Stream
open Text Data Data.Broadcast

namespace BroadcastHub

variable {ρ τ : Type} {hub : BroadcastHub ρ τ} {topic other : Str}

theorem dropHeld_within (hub : BroadcastHub ρ τ) (held : Option Nat) : Within hub (hub.dropHeld held) := by
  cases held with
  | none => exact .refl hub
  | some r => exact dropReceiver_within hub r

theorem dropHeld_receiver {held : Option Nat} {r : Nat} {rc : Receiver τ} :
    (hub.dropHeld held).bus.receiver r = some rc ↔ held ≠ some r ∧ hub.bus.receiver r = some rc := by
  cases held with
  | none => exact ⟨fun live => ⟨nofun, live⟩, fun live => live.2⟩
  | some old =>
    change (hub.bus.drop old).receiver r = some rc ↔ _
    rw [Bus.drop_receiver]
    by_cases same : r = old
    · simp [same]
    · rw [if_neg same]
      exact ⟨fun live => ⟨fun clash => same (Option.some.inj clash).symm, live⟩, fun live => live.2⟩

theorem unsubscribeWildcard_within (hub : BroadcastHub ρ τ) : Within hub hub.unsubscribeWildcard := by
  unfold unsubscribeWildcard
  exact ⟨rfl, fun _ ch found => ⟨ch, found, rfl⟩, fun _ rc live => ⟨rc, live, rfl⟩⟩

/-- The hub of an unsubscription before it looks for receivers. -/
def withoutHeld (hub : BroadcastHub ρ τ) (held : Option Nat) (topic : Str) : BroadcastHub ρ τ :=
  (if topic = wildcardTopic then hub.unsubscribeWildcard else hub).dropHeld held

theorem unsubscribeTopic_eq (hub : BroadcastHub ρ τ) (held : Option Nat) (topic : Str) :
    hub.unsubscribeTopic held topic = (hub.withoutHeld held topic).removeSubscriber topic := rfl

theorem unsubscribeTopic_within (hub : BroadcastHub ρ τ) (held : Option Nat) (topic : Str) :
    Within hub (hub.unsubscribeTopic held topic) := by
  have counted : Within hub (if topic = wildcardTopic then hub.unsubscribeWildcard else hub) := by
    split
    · exact unsubscribeWildcard_within hub
    · exact .refl hub
  exact (counted.trans (dropHeld_within _ held)).trans (removeSubscriber_within _ topic)

theorem cleanup_within (hub : BroadcastHub ρ τ) (topics : List Str) : Within hub (hub.cleanup topics) := by
  unfold cleanup
  induction topics generalizing hub with
  | nil => exact .refl hub
  | cons topic topics ih =>
    rw [List.foldl_cons]
    refine Within.trans ?_ (ih _)
    split
    · exact unsubscribeWildcard_within hub
    · exact removeSubscriber_within hub topic

theorem dropAll_within (hub : BroadcastHub ρ τ) (receivers : List Nat) : Within hub (hub.dropAll receivers) := by
  refine ⟨rfl, fun t ch found => ⟨ch, found, rfl⟩, fun r rc live => ?_⟩
  change (hub.bus.dropAll receivers).receiver r = some rc at live
  rw [Bus.dropAll_receiver] at live
  split at live
  · cases live
  · exact ⟨rc, live, rfl⟩

theorem Within.get_none {hub' : BroadcastHub ρ τ} (within : Within hub hub') (missing : hub.topics.get topic = none) :
    hub'.topics.get topic = none := by
  cases found : hub'.topics.get topic with
  | none => rfl
  | some ch =>
    obtain ⟨ch', was, _⟩ := within.topics topic ch found
    rw [missing] at was
    cases was

theorem removeSubscriber_bus (hub : BroadcastHub ρ τ) (topic : Str) : (hub.removeSubscriber topic).bus = hub.bus := by
  unfold removeSubscriber
  split <;> rfl

theorem unsubscribeTopic_receiver {held : Option Nat} {r : Nat} {rc : Receiver τ} :
    (hub.unsubscribeTopic held topic).bus.receiver r = some rc ↔ held ≠ some r ∧ hub.bus.receiver r = some rc := by
  rw [unsubscribeTopic_eq, removeSubscriber_bus, withoutHeld, dropHeld_receiver]
  split <;> rfl

/-- A topic that is not removed has a receiver. -/
theorem unsubscribeTopic_entry {held : Option Nat} {ch : TopicChannel ρ}
    (entry : (hub.unsubscribeTopic held topic).topics.get topic = some ch) :
    ∃ r rc, (hub.unsubscribeTopic held topic).bus.receiver r = some rc ∧ rc.channel = ch.tx := by
  rw [unsubscribeTopic_eq] at entry ⊢
  rw [removeSubscriber_bus]
  unfold removeSubscriber at entry
  split at entry
  · rw [removeTopic_get, if_pos rfl] at entry
    cases entry
  · rename_i receivers
    by_contra nobody
    push Not at nobody
    exact receivers (lacksReceivers_iff.mpr ⟨ch, entry, nobody⟩)

theorem WellFormed.subscribeTopic (wf : hub.WellFormed) (topic : Str) : (hub.subscribeTopic topic).2.WellFormed := by
  unfold BroadcastHub.subscribeTopic
  split
  · exact wf.subscribeWildcard
  · exact wf.subscribe topic

theorem subscribeTopic_get_ne (different : other ≠ topic) :
    (hub.subscribeTopic topic).2.topics.get other = hub.topics.get other := by
  unfold subscribeTopic
  split
  · rfl
  · exact getOrCreateTopic_get_ne different

/-- Nobody subscribes to a topic by the name of the wildcard. -/
theorem subscribeTopic_get_wildcard (hub : BroadcastHub ρ τ) (topic : Str) :
    (hub.subscribeTopic topic).2.topics.get wildcardTopic = hub.topics.get wildcardTopic := by
  unfold subscribeTopic
  split
  · rfl
  · rename_i plain
    exact getOrCreateTopic_get_ne fun same => plain same.symm

/-- A receiver on the channel of a topic is the new one, or was on that channel before. -/
theorem subscribeTopic_attached (wf : hub.WellFormed) {ch : TopicChannel ρ} {r : Nat} {rc : Receiver τ}
    (entry : (hub.subscribeTopic topic).2.topics.get other = some ch)
    (live : (hub.subscribeTopic topic).2.bus.receiver r = some rc) (on : rc.channel = ch.tx) :
    (other = topic ∧ r = (hub.subscribeTopic topic).1) ∨
      ∃ before, hub.topics.get other = some before ∧ hub.bus.receiver r = some rc ∧ rc.channel = before.tx := by
  have wf' := wf.subscribeTopic topic
  unfold subscribeTopic at entry live wf' ⊢
  split at entry
  · rename_i wild
    rw [if_pos wild] at live wf' ⊢
    change (hub.bus.subscribe wildcard).receiver r = some rc at live
    rw [Bus.subscribe_receiver] at live
    split at live
    · cases live
      exact absurd (wf'.channel other ch entry).1 (by rw [← on]; exact Nat.lt_irrefl _)
    · exact .inr ⟨ch, entry, live, on⟩
  · rename_i plain
    rw [if_neg plain] at live wf' ⊢
    have mine : (hub.subscribe topic).2.topics.get topic = some (hub.getOrCreateTopic topic).1 :=
      getOrCreateTopic_get hub topic
    rw [subscribe_bus, Bus.subscribe_receiver] at live
    split at live
    · rename_i new
      cases live
      exact .inl ⟨wf'.apart other topic ch _ entry mine on.symm, by rw [subscribe_fst, new]⟩
    · right
      by_cases same : other = topic
      · subst same
        cases was : hub.topics.get other with
        | some before =>
          rw [subscribe_topics, getOrCreateTopic_of_get was, was] at entry
          cases entry
          exact ⟨ch, rfl, live, on⟩
        | none =>
          have fresh : ch.tx = hub.nextChannel := by
            rw [subscribe_topics, BroadcastHub.getOrCreateTopic, was] at entry
            rw [HashMap.get_insert] at entry
            cases entry
            rfl
          exact absurd (wf.receivers r rc live) (by rw [on, fresh]; exact Nat.lt_irrefl _)
      · rw [subscribe_topics, getOrCreateTopic_get_ne same] at entry
        exact ⟨ch, entry, live, on⟩

end BroadcastHub

/-- The connection holds nothing but the wildcard. -/
def Connection.Topicless (conn : Connection) : Prop := ∀ topic ∈ conn.subscriptions.keys, topic = wildcardTopic

instance (conn : Connection) : Decidable conn.Topicless := inferInstanceAs (Decidable (∀ topic ∈ _, _))

theorem Connection.topicless_iff {conn : Connection} :
    conn.Topicless ↔ ∀ topic r, conn.subscriptions.get topic = some r → topic = wildcardTopic := by
  constructor
  · intro topicless topic r has
    exact topicless topic (AList.lookup_isSome.mp (Option.isSome_of_eq_some has))
  · intro topicless topic member
    obtain ⟨r, has⟩ := Option.isSome_iff_exists.mp (AList.lookup_isSome.mpr member)
    exact topicless topic r has

namespace StreamServer

variable {F : Type} {setup : StreamSetup F} {s t : StreamServer F} {i : Nat} {conn conn' : Connection}

/-- A connection closes without a topic and subscribes to nothing afterwards. -/
def ClosesTopicless (s : StreamServer F) : SocketEvent → Prop
  | .subscribe i _ => ∀ conn ∈ s.connections[i]?, conn.isOpen = true
  | .close i => ∀ conn ∈ s.connections[i]?, conn.Topicless
  | _ => True

instance (s : StreamServer F) : ∀ e, Decidable (ClosesTopicless s e)
  | .subscribe i _ => inferInstanceAs (Decidable (∀ conn ∈ s.connections[i]?, conn.isOpen = true))
  | .close i => inferInstanceAs (Decidable (∀ conn ∈ s.connections[i]?, conn.Topicless))
  | .connect | .unsubscribe .. | .publish _ | .readerEnds _ | .fanoutEnds _ => .isTrue trivial

def LeavesNothing (s : StreamServer F) (e : SocketEvent) : Prop := WildcardBalanced s e ∧ ClosesTopicless s e

instance (s : StreamServer F) (e : SocketEvent) : Decidable (LeavesNothing s e) := inferInstanceAs (Decidable (_ ∧ _))

/-- Some connection has this receiver for the topic. -/
def Holds (s : StreamServer F) (topic : Str) (r : Nat) : Prop :=
  ∃ (j : Nat) (conn : Connection), s.connections[j]? = some conn ∧ conn.subscriptions.get topic = some r

/-- Closed connections hold no topic, every topic is held, and its receivers are those that are held. -/
structure Tidy (s : StreamServer F) : Prop where
  wellFormed : s.hub.WellFormed
  small : s.hub.wildcardSubscribers < 2 ^ 64
  exact : WildcardExact s
  closed : ∀ conn ∈ s.connections, conn.isOpen = false → conn.Topicless
  wildcard : s.hub.topics.get wildcardTopic = none
  topics : ∀ topic ch, s.hub.topics.get topic = some ch → ∃ r, s.Holds topic r
  held : ∀ topic ch r rc, s.hub.topics.get topic = some ch → s.hub.bus.receiver r = some rc →
    rc.channel = ch.tx → s.Holds topic r

/-! ### Holding after a step -/

theorem Holds.replaced {topic : Str} {r : Nat} (holds : s.Holds topic r) (found : s.connections[i]? = some conn)
    (hub : BroadcastHub (IlpRow F) (StreamTick F)) (conn' : Connection) :
    conn.subscriptions.get topic = some r ∨ Holds ⟨hub, s.connections.set i conn'⟩ topic r := by
  obtain ⟨j, other, there, has⟩ := holds
  by_cases same : j = i
  · subst same
    obtain rfl : conn = other := Option.some.inj (found.symm.trans there)
    exact .inl has
  · exact .inr ⟨j, other, by rw [Machine.getElem?_replaced found, if_neg same, there], has⟩

theorem holds_replaced {topic : Str} {r : Nat} (found : s.connections[i]? = some conn)
    (hub : BroadcastHub (IlpRow F) (StreamTick F)) (has : conn'.subscriptions.get topic = some r) :
    Holds ⟨hub, s.connections.set i conn'⟩ topic r :=
  ⟨i, conn', by rw [Machine.getElem?_replaced found, if_pos rfl], has⟩

theorem closed_set (tidy : Tidy s) (topicless : conn'.isOpen = false → conn'.Topicless) :
    ∀ other ∈ s.connections.set i conn', other.isOpen = false → other.Topicless := by
  intro other member
  rcases List.mem_or_eq_of_mem_set member with old | rfl
  · exact tidy.closed other old
  · exact topicless

/-- A step that takes no topic out of a map. -/
theorem Tidy.frame (tidy : Tidy s) (counts : t.hub.wildcardSubscribers < 2 ^ 64 ∧ WildcardExact t)
    (within : BroadcastHub.Within s.hub t.hub)
    (closed : ∀ conn ∈ t.connections, conn.isOpen = false → conn.Topicless)
    (maps : ∀ topic r, topic ≠ wildcardTopic → s.Holds topic r → t.Holds topic r) : Tidy t := by
  have plain : ∀ {topic ch}, s.hub.topics.get topic = some ch → topic ≠ wildcardTopic := by
    rintro topic ch was rfl
    rw [tidy.wildcard] at was
    cases was
  refine ⟨tidy.wellFormed.within within, counts.1, counts.2, closed, within.get_none tidy.wildcard,
    fun topic ch found => ?_, fun topic ch r rc found live on => ?_⟩
  · obtain ⟨ch', was, _⟩ := within.topics topic ch found
    obtain ⟨r, holds⟩ := tidy.topics topic ch' was
    exact ⟨r, maps topic r (plain was) holds⟩
  · obtain ⟨ch', was, tx⟩ := within.topics topic ch found
    obtain ⟨rc', lived, channel⟩ := within.receivers r rc live
    exact maps topic r (plain was) (tidy.held topic ch' r rc' was lived (by rw [← channel, ← tx, on]))

theorem settle_tidy {hub : BroadcastHub (IlpRow F) (StreamTick F)} (tidy : Tidy s)
    (found : s.connections[i]? = some conn) (within : BroadcastHub.Within s.hub hub)
    (counts : (s.settle i hub conn').hub.wildcardSubscribers < 2 ^ 64 ∧ WildcardExact (s.settle i hub conn'))
    (same : conn'.subscriptions = conn.subscriptions)
    (topicless : conn'.isOpen = false → conn'.Topicless) : Tidy (s.settle i hub conn') := by
  unfold settle at counts ⊢
  split at counts
  · rename_i gone
    have nothing : ({ conn' with subscriptions := ∅ } : Connection).Topicless := fun _ member => nomatch member
    rw [if_pos gone]
    refine tidy.frame counts (within.trans (hub.dropAll_within _)) (closed_set tidy fun _ => nothing) ?_
    intro topic r plain holds
    rcases holds.replaced found _ { conn' with subscriptions := ∅ } with here | there
    · have lone := Connection.topicless_iff.mp (topicless (Connection.isGone_closed gone))
      exact (plain (lone topic r (same ▸ here))).elim
    · exact there
  · rename_i here
    rw [if_neg here]
    refine tidy.frame counts within (closed_set tidy topicless) fun topic r _ holds => ?_
    rcases holds.replaced found hub conn' with mine | there
    · exact holds_replaced found hub (same ▸ mine)
    · exact there

/-! ### Subscribing and unsubscribing -/

theorem subscribe_tidy (tidy : Tidy s) (found : s.connections[i]? = some conn) (here : conn.isOpen = true)
    {topic : Str} (counts : (s.subscribe i conn topic).hub.wildcardSubscribers < 2 ^ 64 ∧
      WildcardExact (s.subscribe i conn topic)) : Tidy (s.subscribe i conn topic) := by
  have has : ∀ other, HashMap.get (conn.subscriptions.insert topic (s.hub.subscribeTopic topic).1) other =
        if other = topic then some (s.hub.subscribeTopic topic).1 else conn.subscriptions.get other := by
    intro other
    split
    · rename_i same
      rw [same, HashMap.get_insert]
    · rename_i different
      exact HashMap.get_insert_ne _ _ different
  have within := (s.hub.subscribeTopic topic).2.dropHeld_within (conn.subscriptions.get topic)
  have subscribed := tidy.wellFormed.subscribeTopic topic
  have kept : ∀ other r, s.Holds other r → conn.subscriptions.get topic ≠ some r ∨ other ≠ topic →
      (s.subscribe i conn topic).Holds other r := by
    intro other r holds free
    rcases holds.replaced found (s.subscribe i conn topic).hub
      { conn with subscriptions := conn.subscriptions.insert topic (s.hub.subscribeTopic topic).1 } with mine | there
    · have different : other ≠ topic := by
        rcases free with old | different
        · intro same
          exact old (same ▸ mine)
        · exact different
      exact holds_replaced found _ ((has other).trans ((if_neg different).trans mine))
    · exact there
  have mine : (s.subscribe i conn topic).Holds topic (s.hub.subscribeTopic topic).1 := by
    exact holds_replaced found _ ((has topic).trans (if_pos rfl))
  refine ⟨subscribed.within within, counts.1, counts.2,
    closed_set tidy fun closed => absurd here (by rw [closed]; exact Bool.false_ne_true),
    within.get_none ((s.hub.subscribeTopic_get_wildcard topic).trans tidy.wildcard),
    fun other ch entry => ?_, fun other ch r rc entry live on => ?_⟩
  · by_cases same : other = topic
    · rw [same]
      exact ⟨_, mine⟩
    · obtain ⟨ch', was, _⟩ := within.topics other ch entry
      rw [BroadcastHub.subscribeTopic_get_ne same] at was
      obtain ⟨r, holds⟩ := tidy.topics other ch' was
      exact ⟨r, kept other r holds (.inr same)⟩
  · obtain ⟨ch', entered, tx⟩ := within.topics other ch entry
    rw [tx] at on
    obtain ⟨fresh, lived⟩ := BroadcastHub.dropHeld_receiver.mp live
    rcases BroadcastHub.subscribeTopic_attached tidy.wellFormed entered lived on with ⟨same, new⟩ | ⟨before, was, alive, on⟩
    · rw [same, new]
      exact mine
    · exact kept other r (tidy.held other before r rc was alive on) (.inl fresh)

theorem unsubscribe_tidy (tidy : Tidy s) (found : s.connections[i]? = some conn)
    {topic : Str} (counts : (s.unsubscribe i conn topic).hub.wildcardSubscribers < 2 ^ 64 ∧
      WildcardExact (s.unsubscribe i conn topic)) : Tidy (s.unsubscribe i conn topic) := by
  have within := s.hub.unsubscribeTopic_within (conn.subscriptions.get topic) topic
  have kept : ∀ other r, s.Holds other r → conn.subscriptions.get topic ≠ some r ∨ other ≠ topic →
      (s.unsubscribe i conn topic).Holds other r := by
    intro other r holds free
    rcases holds.replaced found (s.unsubscribe i conn topic).hub
      { conn with subscriptions := conn.subscriptions.erase topic } with mine | there
    · have different : other ≠ topic := by
        rcases free with old | different
        · intro same
          exact old (same ▸ mine)
        · exact different
      exact holds_replaced found _ ((HashMap.get_erase _ _ _).trans ((if_neg different).trans mine))
    · exact there
  have held : ∀ other ch r rc, s.hub.topics.get other = some ch →
      (s.unsubscribe i conn topic).hub.bus.receiver r = some rc → rc.channel = ch.tx →
        (s.unsubscribe i conn topic).Holds other r := by
    intro other ch r rc was live on
    obtain ⟨fresh, lived⟩ := BroadcastHub.unsubscribeTopic_receiver.mp live
    exact kept other r (tidy.held other ch r rc was lived on) (.inl fresh)
  refine ⟨tidy.wellFormed.within within, counts.1, counts.2, closed_set tidy fun closed => ?_,
    within.get_none tidy.wildcard, fun other ch entry => ?_, fun other ch r rc entry live on => ?_⟩
  · have before := Connection.topicless_iff.mp (tidy.closed conn (List.mem_of_getElem? found) closed)
    refine Connection.topicless_iff.mpr fun other r has => ?_
    dsimp only at has
    rw [HashMap.get_erase] at has
    split at has
    · cases has
    · exact before other r has
  · by_cases same : other = topic
    · subst same
      obtain ⟨r, rc, live, on⟩ := BroadcastHub.unsubscribeTopic_entry entry
      obtain ⟨ch', was, tx⟩ := within.topics other ch entry
      exact ⟨r, held other ch' r rc was live (by rw [on, tx])⟩
    · obtain ⟨ch', was, _⟩ := within.topics other ch entry
      obtain ⟨r, holds⟩ := tidy.topics other ch' was
      exact ⟨r, kept other r holds (.inr same)⟩
  · obtain ⟨ch', was, tx⟩ := within.topics other ch entry
    exact held other ch' r rc was live (by rw [on, tx])

theorem Tidy.step {e : SocketEvent} (tidy : Tidy s) (leaves : LeavesNothing s e) (h : step setup s e = some t) :
    Tidy t := by
  obtain ⟨balanced, closes⟩ := leaves
  obtain ⟨small, exact⟩ := step_counts tidy.small tidy.exact h
  have counts := And.intro small (exact.mpr balanced)
  cases step_does h with
  | connect =>
    refine tidy.frame counts (.refl s.hub) (fun conn member closed => ?_) fun topic r _ holds => ?_
    · rcases List.mem_append.mp member with old | new
      · exact tidy.closed conn old closed
      · rw [List.mem_singleton.mp new] at closed
        cases closed
    · obtain ⟨j, conn, there, has⟩ := holds
      exact ⟨j, conn, List.getElem?_append_left (List.getElem?_eq_some_iff.mp there).1 |>.trans there, has⟩
  | publish line =>
    exact tidy.frame counts (BroadcastHub.publish_within setup s.hub line) tidy.closed fun _ _ _ holds => holds
  | @subscribe i conn found reads topic => exact subscribe_tidy tidy found (closes conn found) counts
  | @unsubscribe i conn found reads topic => exact unsubscribe_tidy tidy found counts
  | @readerEnds i conn found reads =>
    exact settle_tidy tidy found (.refl s.hub) counts rfl (tidy.closed conn (List.mem_of_getElem? found))
  | @fanoutEnds i conn found forwards =>
    exact settle_tidy tidy found (.refl s.hub) counts rfl (tidy.closed conn (List.mem_of_getElem? found))
  | @close i conn found here ended =>
    exact settle_tidy tidy found (s.hub.cleanup_within _) counts rfl fun _ => closes conn found

/-! ### Every run -/

theorem tidy_start : Tidy (start : StreamServer F) :=
  ⟨BroadcastHub.wellFormed_new, Nat.two_pow_pos 64, rfl, nofun, rfl, nofun, nofun⟩

/-- A hub without topics and wildcard subscribers. -/
theorem Tidy.quiet (tidy : Tidy s) (allClosed : ∀ conn ∈ s.connections, conn.isOpen = false) :
    (∀ topic, s.hub.topics.get topic = none) ∧ s.hub.wildcardSubscribers = 0 := by
  constructor
  · intro topic
    cases found : s.hub.topics.get topic with
    | none => rfl
    | some ch =>
      obtain ⟨r, j, conn, there, has⟩ := tidy.topics topic ch found
      have member := List.mem_of_getElem? there
      have wild := Connection.topicless_iff.mp (tidy.closed conn member (allClosed conn member)) topic r has
      rw [wild, tidy.wildcard] at found
      cases found
  · rw [tidy.exact]
    refine List.countP_eq_zero.mpr fun conn member => ?_
    simp [countedWildcard, allClosed conn member]

theorem hasSubscribers_quiet {hub : BroadcastHub (IlpRow F) (StreamTick F)}
    (topics : ∀ topic, hub.topics.get topic = none) (counter : hub.wildcardSubscribers = 0) :
    hub.hasSubscribers = false := by
  rw [← Bool.not_eq_true, BroadcastHub.hasSubscribers_iff]
  rintro (some | ⟨topic, ch, _, _, found, _⟩)
  · omega
  · rw [topics topic] at found
    cases found

/-- If every connection gives up its topics before it closes, subscribes to none afterwards, and keeps the
wildcard counter exact, then with the last connection the hub is left without topics and subscribers, and
publishing returns early. -/
theorem disconnect_leaves_nothing {events : List SocketEvent} (meets : Machine.Meets (step setup) LeavesNothing start events)
    (reached : Machine.run (step setup) start events = some s)
    (allClosed : ∀ conn ∈ s.connections, conn.isOpen = false) :
    (∀ topic, s.hub.topics.get topic = none) ∧ s.hub.hasSubscribers = false ∧
      ∀ line, s.hub.publish setup line = s.hub := by
  have tidy : Tidy s := Machine.invariant_run_of_meets (fun _ _ _ kept leaves h => kept.step leaves h) tidy_start
    meets reached
  obtain ⟨topics, counter⟩ := tidy.quiet allClosed
  have quiet := hasSubscribers_quiet topics counter
  refine ⟨topics, quiet, fun line => ?_⟩
  unfold BroadcastHub.publish
  rw [quiet]
  rfl

/-- Two connections on one topic unsubscribe and close, the second with its wildcard receiver. -/
def politeVisit : List SocketEvent :=
  [.connect, .connect, .subscribe 0 "A".toList, .subscribe 1 "A".toList, .subscribe 1 wildcardTopic,
    .unsubscribe 0 "A".toList, .readerEnds 0, .close 0, .unsubscribe 1 "A".toList, .readerEnds 1, .close 1]

theorem disconnect_leaves_nothing_polite :
    ∃ s, Machine.run (step silentSetup) start politeVisit = some s ∧
      (∀ conn ∈ s.connections, conn.isOpen = false) ∧ s.hub.hasSubscribers = false := by
  obtain ⟨s, reached, allClosed⟩ : ∃ s, Machine.run (step silentSetup) start politeVisit = some s ∧
      ∀ conn ∈ s.connections, conn.isOpen = false := ⟨_, rfl, by decide⟩
  exact ⟨s, reached, allClosed, (disconnect_leaves_nothing (by decide) reached allClosed).2.1⟩

/-- A client subscribes to a topic and disconnects. -/
def leavingSubscribed : List SocketEvent := [.connect, .subscribe 0 "A".toList, .readerEnds 0, .close 0]

theorem disconnect_leaves_topic :
    ∃ s, Machine.run (step silentSetup) start leavingSubscribed = some s ∧
      (∀ conn ∈ s.connections, conn.isOpen = false) ∧ (s.hub.topics.get "A".toList).isSome = true ∧
        s.hub.hasSubscribers = true :=
  ⟨_, rfl, by decide, by decide, by decide⟩

end StreamServer
end QuestRouter.Stream
