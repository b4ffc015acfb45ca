import QuestRouter.Data.Machine
import QuestRouter.Stream.HubFacts

/-!
# Tasks on a hub

Tasks subscribe to topics, drop receivers, publish, and remove subscribers. `remove_subscriber` first counts
the receivers of a topic and then, in a step of its own, removes the topic; a task that subscribes in between
listens to a channel that the hub has forgotten.
-/

namespace QuestRouter.Stream
open Text Data Data.Broadcast

inductive HubEvent (ρ τ : Type) where
  | subscribe (topic : Str)
  | release (r : Nat)
  /-- `remove_subscriber` counts the receivers; where there are none it goes on to remove the topic. -/
  | check (topic : Str)
  | remove (i : Nat)
  /-- `publish` counts the receivers; where there are some it goes on to send. -/
  | publish (topic : Str) (row : ρ) (tick : τ)
  | send (i : Nat)

structure HubTasks (ρ τ : Type) where
  hub : BroadcastHub ρ τ
  /-- The topics of the receivers that tasks hold. -/
  held : Nat → Option Str
  /-- The topics about to be removed, each with the first receiver that subscribed after the count. -/
  removers : List (Str × Nat)
  senders : List (Str × ρ × τ)

namespace HubTasks

variable {ρ τ : Type}

def start : HubTasks ρ τ := ⟨.new, fun _ => none, [], []⟩

def step (config : StreamConfig) (s : HubTasks ρ τ) : HubEvent ρ τ → Option (HubTasks ρ τ)
  | .subscribe topic =>
    some { s with
      hub := (s.hub.subscribe topic).2
      held := fun r => if r = (s.hub.subscribe topic).1 then some topic else s.held r }
  | .release r =>
    if (s.held r).isSome then
      some { s with hub := s.hub.dropReceiver r, held := fun r' => if r' = r then none else s.held r' }
    else none
  | .check topic =>
    if s.hub.lacksReceivers topic then some { s with removers := s.removers ++ [(topic, s.hub.bus.next)] }
    else some s
  | .remove i =>
    (s.removers[i]?).map fun remover =>
      { s with hub := s.hub.removeTopic remover.1, removers := s.removers.eraseIdx i }
  | .publish topic row tick =>
    if 0 < s.hub.topicReceiverCount topic then some { s with senders := s.senders ++ [(topic, row, tick)] }
    else some s
  | .send i =>
    (s.senders[i]?).map fun sender =>
      { s with
        hub := s.hub.sendToTopic config sender.1 sender.2.1 sender.2.2
        senders := s.senders.eraseIdx i }

/-- Every held receiver listens to the channel that the hub has for its topic, and what is sent to the topic
reaches it. -/
structure Live (config : StreamConfig) (s : HubTasks ρ τ) : Prop where
  attached : ∀ r topic, s.held r = some topic →
    ∃ rc ch, s.hub.bus.receiver r = some rc ∧ s.hub.topics.get topic = some ch ∧ rc.channel = ch.tx
  reached : ∀ r topic row tick, s.held r = some topic →
    ∃ rc, (s.hub.sendToTopic config topic row tick).bus.receiver r = some rc ∧ tick ∈ rc.unread

/-- No receiver that subscribed to the topic after the count is held when the topic is removed. -/
def Uninterrupted (s : HubTasks ρ τ) : HubEvent ρ τ → Prop
  | .remove i => ∀ topic since, s.removers[i]? = some (topic, since) → ∀ r, since ≤ r → s.held r ≠ some topic
  | _ => True

/-! ### One step -/

def Attached (s : HubTasks ρ τ) : Prop :=
  ∀ r topic, s.held r = some topic →
    ∃ rc ch, s.hub.bus.receiver r = some rc ∧ s.hub.topics.get topic = some ch ∧ rc.channel = ch.tx

variable {config : StreamConfig} {s t : HubTasks ρ τ}

theorem Attached.live (attached : Attached s) (config : StreamConfig) : Live config s := by
  refine ⟨attached, fun r topic row tick held => ?_⟩
  obtain ⟨rc, ch, live, found, on⟩ := attached r topic held
  refine ⟨rc.deliver config.capacity tick, ?_, Bus.deliver_mem rc config.capacity_pos tick⟩
  rw [BroadcastHub.sendToTopic_bus, BroadcastHub.getOrCreateTopic_of_get found, Bus.send_receiver, live,
    Option.map_some, if_pos on]

/-- The channels are apart, and whoever removes a topic counted before its receivers subscribed. -/
structure Counted (s : HubTasks ρ τ) : Prop where
  wellFormed : s.hub.WellFormed
  held : ∀ r topic, s.held r = some topic → r < s.hub.bus.next
  before : ∀ remover ∈ s.removers, remover.2 ≤ s.hub.bus.next
  removers : ∀ remover ∈ s.removers, ∀ r, s.held r = some remover.1 → remover.2 ≤ r

theorem counted_start : Counted (start : HubTasks ρ τ) :=
  ⟨BroadcastHub.wellFormed_new, nofun, nofun, nofun⟩

/-- A hub that keeps the receivers and the channels of the topics keeps them attached. -/
theorem Attached.frame {hub : BroadcastHub ρ τ} (attached : Attached s)
    (receivers : ∀ r rc, s.hub.bus.receiver r = some rc →
      ∃ rc', hub.bus.receiver r = some rc' ∧ rc'.channel = rc.channel)
    (topics : ∀ topic ch, s.hub.topics.get topic = some ch →
      ∃ ch', hub.topics.get topic = some ch' ∧ ch'.tx = ch.tx) (removers : List (Str × Nat))
    (senders : List (Str × ρ × τ)) : Attached ⟨hub, s.held, removers, senders⟩ := by
  intro r topic holds
  obtain ⟨rc, ch, live, found, on⟩ := attached r topic holds
  obtain ⟨rc', live', channel⟩ := receivers r rc live
  obtain ⟨ch', found', tx⟩ := topics topic ch found
  exact ⟨rc', ch', live', found', by rw [channel, tx, on]⟩

theorem subscribe_keeps {topic : Str} (counted : Counted s) (attached : Attached s) :
    let t : HubTasks ρ τ := { s with
      hub := (s.hub.subscribe topic).2
      held := fun r => if r = (s.hub.subscribe topic).1 then some topic else s.held r }
    Counted t ∧ Attached t := by
  have bus := BroadcastHub.subscribe_bus s.hub topic
  have next : (s.hub.subscribe topic).2.bus.next = s.hub.bus.next + 1 := by rw [bus, Bus.subscribe_next]
  refine ⟨⟨counted.wellFormed.subscribe topic, fun r other holds => ?_, fun remover listed => ?_,
    fun remover listed r holds => ?_⟩, fun r other holds => ?_⟩
  · rw [next]
    dsimp only at holds
    rw [BroadcastHub.subscribe_fst] at holds
    split at holds
    · rename_i new
      rw [new]
      exact Nat.lt_succ_self _
    · exact Nat.lt_succ_of_lt (counted.held r other holds)
  · rw [next]
    exact Nat.le_succ_of_le (counted.before remover listed)
  · dsimp only at holds
    rw [BroadcastHub.subscribe_fst] at holds
    split at holds
    · rename_i new
      rw [new]
      exact counted.before remover listed
    · exact counted.removers remover listed r holds
  · dsimp only at holds ⊢
    rw [BroadcastHub.subscribe_fst] at holds
    rw [bus, BroadcastHub.subscribe_topics]
    split at holds
    · rename_i new
      cases holds
      exact ⟨_, _, by rw [Bus.subscribe_receiver, if_pos new], BroadcastHub.getOrCreateTopic_get s.hub topic, rfl⟩
    · rename_i old
      obtain ⟨rc, ch, live, found, on⟩ := attached r other holds
      exact ⟨rc, ch, by rw [Bus.subscribe_receiver, if_neg old, live], BroadcastHub.getOrCreateTopic_keeps found topic, on⟩

theorem release_keeps {r : Nat} (counted : Counted s) (attached : Attached s) :
    let t : HubTasks ρ τ := { s with
      hub := s.hub.dropReceiver r, held := fun r' => if r' = r then none else s.held r' }
    Counted t ∧ Attached t := by
  have older : ∀ {r' topic}, (if r' = r then none else s.held r') = some topic → r' ≠ r ∧ s.held r' = some topic := by
    intro r' topic holds
    split at holds
    · cases holds
    · rename_i other
      exact ⟨other, holds⟩
  refine ⟨⟨counted.wellFormed.within (BroadcastHub.dropReceiver_within s.hub r),
    fun r' topic holds => counted.held r' topic (older holds).2, counted.before, fun remover listed r' holds => counted.removers remover listed r' (older holds).2⟩,
    fun r' topic holds => ?_⟩
  obtain ⟨other, held⟩ := older holds
  obtain ⟨rc, ch, live, found, on⟩ := attached r' topic held
  refine ⟨rc, ch, ?_, found, on⟩
  change (s.hub.bus.drop r).receiver r' = some rc
  rw [Bus.drop_receiver, if_neg other, live]

/-- Where the count is zero no receiver of the topic is held. -/
theorem lacks_not_held {topic : Str} (attached : Attached s) (lacks : s.hub.lacksReceivers topic = true) (r : Nat) :
    s.held r ≠ some topic := by
  intro holds
  obtain ⟨ch, found, nobody⟩ := BroadcastHub.lacksReceivers_iff.mp lacks
  obtain ⟨rc, ch', live, found', on⟩ := attached r topic holds
  rw [found] at found'
  cases found'
  exact nobody r rc live on

theorem send_keeps {topic : Str} (row : ρ) (tick : τ) (senders : List (Str × ρ × τ)) (counted : Counted s)
    (attached : Attached s) :
    Counted { s with hub := s.hub.sendToTopic config topic row tick, senders } ∧
      Attached { s with hub := s.hub.sendToTopic config topic row tick, senders } := by
  have bus := BroadcastHub.sendToTopic_bus config s.hub topic row tick
  constructor
  · refine ⟨counted.wellFormed.sendToTopic config topic row tick, ?_, ?_, counted.removers⟩
    · dsimp only
      rw [bus, Bus.send_next]
      exact counted.held
    · dsimp only
      rw [bus, Bus.send_next]
      exact counted.before
  · refine attached.frame (fun r rc live => ?_) (fun other ch found => ?_) s.removers senders
    · rw [bus]
      exact Bus.send_live live _ _ _
    · exact BroadcastHub.sendToTopic_keeps found config topic row tick

theorem remove_attached {topic : Str} (attached : Attached s) (removers : List (Str × Nat))
    (free : ∀ r, s.held r ≠ some topic) : Attached { s with hub := s.hub.removeTopic topic, removers } := by
  intro r other holds
  obtain ⟨rc, ch, live, found, on⟩ := attached r other holds
  refine ⟨rc, ch, live, ?_, on⟩
  dsimp only
  rw [BroadcastHub.removeTopic_get, if_neg, found]
  intro same
  exact free r (same ▸ holds)

theorem step_keeps {e : HubEvent ρ τ} (counted : Counted s) (attached : Attached s) (uninterrupted : Uninterrupted s e)
    (h : s.step config e = some t) : Counted t ∧ Attached t := by
  cases e with
  | subscribe topic =>
    obtain rfl := Option.some.inj h
    exact subscribe_keeps counted attached
  | release r =>
    unfold step at h
    dsimp only at h
    split at h
    · obtain rfl := Option.some.inj h
      exact release_keeps counted attached
    · cases h
  | check topic =>
    unfold step at h
    dsimp only at h
    split at h
    · rename_i lacks
      obtain rfl := Option.some.inj h
      refine ⟨⟨counted.wellFormed, counted.held, fun remover listed => ?_, fun remover listed r holds => ?_⟩, attached⟩
      · rcases List.mem_append.mp listed with earlier | new
        · exact counted.before remover earlier
        · rw [List.mem_singleton.mp new]
      · rcases List.mem_append.mp listed with earlier | new
        · exact counted.removers remover earlier r holds
        · rw [List.mem_singleton.mp new] at holds
          exact (lacks_not_held attached lacks r holds).elim
    · obtain rfl := Option.some.inj h
      exact ⟨counted, attached⟩
  | remove i =>
    obtain ⟨remover, found, rfl⟩ := Option.map_eq_some_iff.mp h
    have listed := List.mem_of_getElem? found
    have kept : ∀ other ∈ s.removers.eraseIdx i, other ∈ s.removers := fun _ => List.mem_of_mem_eraseIdx
    refine ⟨⟨counted.wellFormed.within (BroadcastHub.removeTopic_within s.hub remover.1), counted.held,
      fun other inside => counted.before other (kept other inside),
      fun other inside => counted.removers other (kept other inside)⟩, remove_attached attached _ ?_⟩
    intro r holds
    exact uninterrupted remover.1 remover.2 found r (counted.removers remover listed r holds) holds
  | publish topic row tick =>
    unfold step at h
    dsimp only at h
    split at h <;> obtain rfl := Option.some.inj h
    · exact ⟨⟨counted.wellFormed, counted.held, counted.before, counted.removers⟩, attached⟩
    · exact ⟨counted, attached⟩
  | send i =>
    obtain ⟨sender, _, rfl⟩ := Option.map_eq_some_iff.mp h
    exact send_keeps _ _ _ counted attached

/-- Removing the topic of a held receiver leaves it without the channel of its topic. -/
theorem step_needs {e : HubEvent ρ τ} (attached : Attached t) (h : s.step config e = some t) :
    Uninterrupted s e := by
  cases e with
  | remove i =>
    obtain ⟨remover, found, rfl⟩ := Option.map_eq_some_iff.mp h
    intro topic since listed r _ holds
    obtain rfl : remover = (topic, since) := Option.some.inj (found.symm.trans listed)
    obtain ⟨_, ch, _, entry, _⟩ := attached r topic holds
    dsimp only at entry
    rw [BroadcastHub.removeTopic_get, if_pos rfl] at entry
    cases entry
  | _ => trivial

/-! ### Every run -/

/-- In a run of any tasks every held receiver stays attached to its topic, and is reached by what is sent to it,
if and only if no topic is removed while a receiver that subscribed after the count is held. -/
theorem subscriptions_live_iff (config : StreamConfig) (events : List (HubEvent ρ τ)) :
    Machine.Always (step config) (Live config) start events ↔
      Machine.Meets (step config) Uninterrupted start events := by
  refine Machine.always_iff_meets (I := Counted) (fun s e t counted live uninterrupted h => ?_)
    (fun s e t _ _ h live => step_needs live.attached h) counted_start ?_
  · obtain ⟨kept, attached⟩ := step_keeps counted live.attached uninterrupted h
    exact ⟨kept, Attached.live attached config⟩
  · exact Attached.live (fun _ _ holds => by cases holds) config

/-- A task subscribes between the count and the removal of another task. -/
def raced : List (HubEvent Unit Unit) :=
  [.subscribe [], .release 0, .check [], .subscribe [], .remove 0]

theorem raced_orphans :
    (∃ s, Machine.run (step .default) start raced = some s ∧ s.held 1 = some [] ∧ s.hub.topics.get [] = none) ∧
      ¬ Machine.Always (step .default) (Live .default) start raced := by
  obtain ⟨s, reached, held, gone⟩ : ∃ s, Machine.run (step .default) start raced = some s ∧ s.held 1 = some [] ∧
      s.hub.topics.get [] = none := ⟨_, rfl, rfl, rfl⟩
  refine ⟨⟨s, reached, held, gone⟩, fun always => ?_⟩
  obtain ⟨_, _, _, found, _⟩ := (always.last reached).attached 1 [] held
  rw [gone] at found
  cases found

end HubTasks
end QuestRouter.Stream
