import QuestRouter.Data.Window
import QuestRouter.Stream.WildcardCount

/-!
# Replay

A topic keeps a window of the rows that were published while it had receivers, for as long as it exists. So
replay gives the recent rows of a topic when these were all published to receivers and the topic was not
removed since.
-/

namespace QuestRouter.Stream
open Text Data Data.Broadcast

namespace BroadcastHub

variable {ρ τ : Type} {hub hub' : BroadcastHub ρ τ} {topic : Str}

/-- The rows that a topic keeps, where there is such a topic. -/
def replays (hub : BroadcastHub ρ τ) (topic : Str) : Option (List ρ) :=
  (hub.topics.get topic).map TopicChannel.replay

theorem replay_eq (hub : BroadcastHub ρ τ) (topic : Str) (lastN : Nat) :
    hub.replay topic lastN = ((hub.replays topic).getD []).rtake lastN := by
  unfold replay replays
  cases hub.topics.get topic with
  | none => exact (List.rtake_nil lastN).symm
  | some ch => rfl

theorem pushReplay_eq (window : Nat) (replay : List ρ) (row : ρ) :
    pushReplay window replay row = (replay ++ [row]).rtake window := rfl

theorem unsubscribeWildcard_replays (hub : BroadcastHub ρ τ) (topic : Str) :
    hub.unsubscribeWildcard.replays topic = hub.replays topic := by
  unfold unsubscribeWildcard replays
  rfl

/-- Every topic keeps its rows, is forgotten, or is new and empty. -/
def Turns (hub hub' : BroadcastHub ρ τ) : Prop :=
  ∀ topic, hub'.replays topic = hub.replays topic ∨ hub'.replays topic = none ∨
    hub.replays topic = none ∧ hub'.replays topic = some []

theorem turns_of_same (same : hub'.topics = hub.topics) : Turns hub hub' := by
  intro topic
  unfold replays
  rw [same]
  exact .inl rfl

theorem removeSubscriber_replays (hub : BroadcastHub ρ τ) (topic : Str) :
    ∀ other, (hub.removeSubscriber topic).replays other = hub.replays other ∨
      (hub.removeSubscriber topic).replays other = none := by
  intro other
  unfold removeSubscriber
  split
  · unfold replays
    rw [removeTopic_get]
    split
    · exact .inr rfl
    · exact .inl rfl
  · exact .inl rfl

theorem turns_subscribeTopic (hub : BroadcastHub ρ τ) (topic : Str) : Turns hub (hub.subscribeTopic topic).2 := by
  unfold subscribeTopic
  split
  · exact turns_of_same rfl
  intro other
  unfold replays
  rw [subscribe_topics]
  by_cases same : other = topic
  · subst same
    cases found : hub.topics.get other with
    | some ch =>
      rw [getOrCreateTopic_of_get found, found]
      exact .inl rfl
    | none =>
      rw [getOrCreateTopic_get, getOrCreateTopic, found]
      exact .inr (.inr ⟨rfl, rfl⟩)
  · rw [getOrCreateTopic_get_ne same]
    exact .inl rfl

theorem dropHeld_topics (hub : BroadcastHub ρ τ) (held : Option Nat) : (hub.dropHeld held).topics = hub.topics := by
  cases held <;> rfl

theorem turns_unsubscribeTopic (hub : BroadcastHub ρ τ) (held : Option Nat) (topic : Str) :
    Turns hub (hub.unsubscribeTopic held topic) := by
  have same : ((if topic = wildcardTopic then hub.unsubscribeWildcard else hub).dropHeld held).topics = hub.topics := by
    rw [dropHeld_topics]
    split
    · unfold unsubscribeWildcard
      rfl
    · rfl
  intro other
  rcases removeSubscriber_replays ((if topic = wildcardTopic then hub.unsubscribeWildcard else hub).dropHeld held) topic
    other with kept | gone
  · left
    refine kept.trans ?_
    unfold replays
    rw [same]
  · exact .inr (.inl gone)

theorem turns_cleanup (hub : BroadcastHub ρ τ) (topics : List Str) : Turns hub (hub.cleanup topics) := by
  have forgets : ∀ other, (hub.cleanup topics).replays other = hub.replays other ∨
      (hub.cleanup topics).replays other = none := by
    unfold cleanup
    induction topics generalizing hub with
    | nil => exact fun _ => .inl rfl
    | cons topic topics ih =>
      intro other
      rw [List.foldl_cons]
      rcases ih (if topic = wildcardTopic then hub.unsubscribeWildcard else hub.removeSubscriber topic) other
        with kept | gone
      · rw [kept]
        split
        · exact .inl (unsubscribeWildcard_replays hub other)
        · exact removeSubscriber_replays hub topic other
      · exact .inr gone
  intro other
  rcases forgets other with kept | gone
  · exact .inl kept
  · exact .inr (.inl gone)

/-- A line is kept by its topic if the topic has receivers and the row can be encoded. -/
def keeps {F : Type} (setup : StreamSetup F) (hub : BroadcastHub (IlpRow F) (StreamTick F)) (topic : Str)
    (row : IlpRow F) : Bool :=
  0 < hub.topicReceiverCount topic && (setup.encodeTick row).isSome

theorem sendToTopic_replays {config : StreamConfig} {row : ρ} {tick : τ} {other : Str}
    (receivers : 0 < hub.topicReceiverCount topic) :
    (hub.sendToTopic config topic row tick).replays other =
      if other = topic then (hub.replays topic).map fun rows => pushReplay config.replayWindow rows row
      else hub.replays other := by
  obtain ⟨ch, r, rc, found, live, on⟩ := topicReceiverCount_pos.mp receivers
  have counted : 0 < hub.bus.receiverCount ch.tx := Bus.receiverCount_pos.mpr ⟨r, rc, live, on⟩
  unfold sendToTopic replays
  rw [getOrCreateTopic_of_get found]
  dsimp only
  rw [if_pos counted]
  split
  · rename_i same
    rw [same, HashMap.get_insert, found]
    rfl
  · rename_i different
    rw [HashMap.get_insert_ne _ _ different]

theorem publish_replays {F : Type} (setup : StreamSetup F) (hub : BroadcastHub (IlpRow F) (StreamTick F))
    (line : Bytes) (other : Str) :
    (hub.publish setup line).replays other =
      match setup.topicRow line with
      | none => hub.replays other
      | some (topic, row) =>
        if other = topic ∧ hub.keeps setup topic row = true then
          (hub.replays topic).map fun rows => pushReplay setup.config.replayWindow rows row
        else hub.replays other := by
  cases parsed : setup.topicRow line with
  | none =>
    unfold publish
    rw [parsed]
    dsimp only
    split <;> rfl
  | some published =>
    obtain ⟨topic, row⟩ := published
    have wild : ∀ (hub : BroadcastHub (IlpRow F) (StreamTick F)) (tick : StreamTick F) (w : Prop) [Decidable w],
        (if w then hub.sendWildcard setup.config tick else hub).replays other = hub.replays other := by
      intro hub tick w _
      split <;> rfl
    unfold publish
    rw [parsed]
    dsimp only
    by_cases receivers : 0 < hub.topicReceiverCount topic
    · have subscribed : hub.hasSubscribers = true := by
        obtain ⟨ch, r, rc, found, live, on⟩ := topicReceiverCount_pos.mp receivers
        exact hasSubscribers_iff.mpr (.inr ⟨topic, ch, r, rc, found, live, on⟩)
      have some : ¬ (¬ 0 < hub.wildcardSubscribers ∧ ¬ 0 < hub.topicReceiverCount topic) := fun none => none.2 receivers
      rw [if_neg (by rw [subscribed]; exact Bool.false_ne_true), if_neg some]
      cases encoded : setup.encodeTick row with
      | none => simp [keeps, encoded]
      | some wire =>
        dsimp only
        rw [wild, if_pos receivers, sendToTopic_replays receivers]
        simp [keeps, encoded, receivers]
    · have drops : hub.keeps setup topic row = false := by simp [keeps, receivers]
      rw [drops]
      simp only [Bool.false_eq_true, and_false, ↓reduceIte, if_neg receivers]
      split
      · rfl
      split
      · rfl
      split
      · rfl
      · rw [wild]

end BroadcastHub
namespace StreamServer

variable {F : Type} {setup : StreamSetup F}

/-- A row that was published to a topic, and whether the topic kept it and was not removed since. -/
structure Published (F : Type) where
  topic : Str
  row : IlpRow F
  kept : Bool

/-- A server with what was published so far. -/
structure Recorded (F : Type) where
  server : StreamServer F
  history : List (Published F)

namespace Recorded

def start : Recorded F := ⟨.start, []⟩

def published (setup : StreamSetup F) (s : StreamServer F) : SocketEvent → List (Published F)
  | .publish line =>
    match setup.topicRow line with
    | some (topic, row) => [⟨topic, row, s.hub.keeps setup topic row⟩]
    | none => []
  | _ => []

/-- Rows of a topic that is removed are not kept any more. -/
def forgetRemoved (hub : BroadcastHub (IlpRow F) (StreamTick F)) (history : List (Published F)) :
    List (Published F) :=
  history.map fun p => { p with kept := p.kept && (hub.replays p.topic).isSome }

def step (setup : StreamSetup F) (s : Recorded F) (e : SocketEvent) : Option (Recorded F) :=
  (StreamServer.step setup s.server e).map fun server =>
    { server, history := forgetRemoved server.hub (s.history ++ published setup s.server e) }

def ofTopic (topic : Str) (history : List (Published F)) : List (Published F) :=
  history.filter fun p => p.topic = topic

def rows (topic : Str) (history : List (Published F)) : List (IlpRow F) := (ofTopic topic history).map Published.row

def keptRows (topic : Str) (history : List (Published F)) : List (IlpRow F) :=
  ((ofTopic topic history).filter Published.kept).map Published.row

end Recorded

/-- The rows of a topic among the lines of a run. -/
def publishedRows (setup : StreamSetup F) (topic : Str) (events : List SocketEvent) : List (IlpRow F) :=
  events.filterMap fun
    | .publish line => (setup.topicRow line).bind fun p => if p.1 = topic then some p.2 else none
    | _ => none

namespace Recorded

/-! ### History -/

theorem keptRows_append (topic : Str) (xs ys : List (Published F)) :
    keptRows topic (xs ++ ys) = keptRows topic xs ++ keptRows topic ys := by
  simp [keptRows, ofTopic, List.filter_append]

theorem rows_append (topic : Str) (xs ys : List (Published F)) :
    rows topic (xs ++ ys) = rows topic xs ++ rows topic ys := by
  simp [rows, ofTopic, List.filter_append]

theorem keptRows_reset (hub : BroadcastHub (IlpRow F) (StreamTick F)) (topic : Str) (history : List (Published F)) :
    keptRows topic (forgetRemoved hub history) =
      if (hub.replays topic).isSome = true then keptRows topic history else [] := by
  unfold keptRows ofTopic forgetRemoved
  induction history with
  | nil => split <;> rfl
  | cons p history ih =>
    by_cases same : p.topic = topic
    · cases present : (hub.replays topic).isSome <;> cases kept : p.kept <;>
        simp_all
    · simp_all

/-- A topic that is there keeps the window of its rows, and one that is not has none. -/
theorem window_reset {ρ : Type} {replays : Option (List ρ)} {kept : List ρ} {n : Nat}
    (window : replays.getD [] = kept.rtake n) :
    replays.getD [] = (if replays.isSome = true then kept else []).rtake n ∧
      (replays = none → (if replays.isSome = true then kept else []) = []) := by
  cases replays with
  | none => exact ⟨(List.rtake_nil _).symm, fun _ => rfl⟩
  | some rows => exact ⟨window, nofun⟩

theorem rows_reset (hub : BroadcastHub (IlpRow F) (StreamTick F)) (topic : Str) (history : List (Published F)) :
    rows topic (forgetRemoved hub history) = rows topic history := by
  unfold rows ofTopic forgetRemoved
  rw [List.filter_map, List.map_map]
  rfl

/-! ### One step -/

/-- Each topic keeps the window of its kept rows; a topic that does not exist has none. -/
def Remembers (setup : StreamSetup F) (s : Recorded F) : Prop :=
  ∀ topic, (s.server.hub.replays topic).getD [] = (keptRows topic s.history).rtake setup.config.replayWindow ∧
    (s.server.hub.replays topic = none → keptRows topic s.history = [])

theorem remembers_of_turns {s : Recorded F} {server : StreamServer F} (remembers : Remembers setup s)
    (turns : BroadcastHub.Turns s.server.hub server.hub) :
    Remembers setup ⟨server, forgetRemoved server.hub (s.history ++ [])⟩ := by
  intro topic
  obtain ⟨window, absent⟩ := remembers topic
  dsimp only
  rw [List.append_nil, keptRows_reset]
  rcases turns topic with same | gone | ⟨new, empty⟩
  · rw [same]
    exact window_reset window
  · rw [gone]
    exact ⟨(List.rtake_nil _).symm, fun _ => rfl⟩
  · rw [empty, absent new]
    exact ⟨(List.rtake_nil _).symm, nofun⟩

theorem keptRows_single (topic : Str) (p : Published F) :
    keptRows topic [p] = if p.topic = topic ∧ p.kept = true then [p.row] else [] := by
  unfold keptRows ofTopic
  by_cases same : p.topic = topic <;> cases kept : p.kept <;> simp [same, kept]

theorem remembers_publish {s : Recorded F} (remembers : Remembers setup s) (line : Bytes) {t : Recorded F}
    (h : step setup s (.publish line) = some t) : Remembers setup t := by
  obtain rfl := Option.some.inj h
  intro topic
  obtain ⟨window, absent⟩ := remembers topic
  have replays := BroadcastHub.publish_replays setup s.server.hub line topic
  dsimp only
  rw [keptRows_reset, keptRows_append]
  cases parsed : setup.topicRow line with
  | none =>
    have added : published setup s.server (.publish line) = [] := by simp [published, parsed]
    rw [parsed] at replays
    rw [added, replays]
    have nothing : keptRows topic ([] : List (Published F)) = [] := rfl
    rw [nothing, List.append_nil]
    exact window_reset window
  | some p =>
    obtain ⟨lineTopic, row⟩ := p
    have added : published setup s.server (.publish line) =
        [⟨lineTopic, row, s.server.hub.keeps setup lineTopic row⟩] := by simp [published, parsed]
    rw [parsed] at replays
    dsimp only at replays
    rw [added, keptRows_single, replays]
    dsimp only
    by_cases keeps : topic = lineTopic ∧ s.server.hub.keeps setup lineTopic row = true
    · obtain ⟨rfl, keeps⟩ := keeps
      simp only [keeps, and_self, ↓reduceIte]
      cases known : s.server.hub.replays topic with
      | none =>
        exact ⟨(List.rtake_nil _).symm, fun _ => rfl⟩
      | some rows =>
        rw [known] at window
        refine ⟨?_, nofun⟩
        change BroadcastHub.pushReplay _ rows row = _
        change rows = _ at window
        simp only [Option.map_some, Option.isSome_some, ↓reduceIte]
        rw [BroadcastHub.pushReplay_eq, window, ← rtake_concat]
    · have other : ¬ (lineTopic = topic ∧ s.server.hub.keeps setup lineTopic row = true) :=
        fun same => keeps ⟨same.1.symm, same.2⟩
      rw [if_neg keeps, if_neg other, List.append_nil]
      exact window_reset window

theorem settle_topics (s : StreamServer F) (i : Nat) (hub : BroadcastHub (IlpRow F) (StreamTick F))
    (conn : Connection) : (s.settle i hub conn).hub.topics = hub.topics := by
  unfold settle
  split <;> rfl

theorem remembers_step {s t : Recorded F} {e : SocketEvent} (remembers : Remembers setup s)
    (h : step setup s e = some t) : Remembers setup t := by
  by_cases line : ∃ line, e = .publish line
  · obtain ⟨line, rfl⟩ := line
    exact remembers_publish remembers line h
  · obtain ⟨server, moved, rfl⟩ := Option.map_eq_some_iff.mp h
    have nothing : published setup s.server e = [] := by
      cases e with
      | publish l => exact (line ⟨l, rfl⟩).elim
      | _ => rfl
    rw [nothing]
    refine remembers_of_turns remembers ?_
    cases step_does moved with
    | connect => exact BroadcastHub.turns_of_same rfl
    | publish l => exact (line ⟨l, rfl⟩).elim
    | @subscribe i conn found reads topic =>
      intro other
      have dropped : (s.server.subscribe i conn topic).hub.replays other =
          (s.server.hub.subscribeTopic topic).2.replays other := by
        unfold BroadcastHub.replays
        exact congrArg (fun topics => (HashMap.get topics other).map TopicChannel.replay)
          (BroadcastHub.dropHeld_topics _ _)
      rw [dropped]
      exact BroadcastHub.turns_subscribeTopic s.server.hub topic other
    | unsubscribe found reads topic => exact BroadcastHub.turns_unsubscribeTopic _ _ _
    | readerEnds found reads => exact BroadcastHub.turns_of_same (settle_topics ..)
    | fanoutEnds found forwards => exact BroadcastHub.turns_of_same (settle_topics ..)
    | @close i conn found here ended =>
      intro other
      have settled : ((s.server.settle i (s.server.hub.cleanup conn.subscriptions.keys)
          { conn with isOpen := false }).hub).replays other =
            (s.server.hub.cleanup conn.subscriptions.keys).replays other := by
        unfold BroadcastHub.replays
        rw [settle_topics]
      rw [settled]
      exact BroadcastHub.turns_cleanup _ _ other

/-! ### Every run -/

variable {s : Recorded F} {events : List SocketEvent}

theorem remembers_start : Remembers setup (start : Recorded F) :=
  fun _ => ⟨(List.rtake_nil _).symm, fun _ => rfl⟩

theorem remembers_run (reached : Machine.run (step setup) start events = some s) : Remembers setup s :=
  Machine.invariant_run (fun _ _ _ remembers h => remembers_step remembers h) remembers_start reached

theorem rows_step {t : Recorded F} {e : SocketEvent} (h : step setup s e = some t) (topic : Str) :
    rows topic t.history = rows topic s.history ++ publishedRows setup topic [e] := by
  obtain ⟨server, moved, rfl⟩ := Option.map_eq_some_iff.mp h
  dsimp only
  rw [rows_reset, rows_append]
  congr 1
  cases e with
  | publish line =>
    unfold published publishedRows
    cases parsed : setup.topicRow line with
    | none => simp [rows, ofTopic, parsed]
    | some p =>
      obtain ⟨lineTopic, row⟩ := p
      by_cases same : lineTopic = topic <;> simp [rows, ofTopic, parsed, same]
  | _ => rfl

theorem rows_run (reached : Machine.run (step setup) start events = some s) (topic : Str) :
    rows topic s.history = publishedRows setup topic events := by
  induction events using List.reverseRecOn generalizing s with
  | nil => cases reached; rfl
  | append_singleton events e ih =>
    obtain ⟨u, before, last⟩ := Machine.run_concat.mp reached
    rw [rows_step last, ih before]
    exact (List.filterMap_append).symm

theorem replay_kept (reached : Machine.run (step setup) start events = some s) (topic : Str) (lastN : Nat) :
    s.server.hub.replay topic lastN =
      (keptRows topic s.history).rtake (min lastN setup.config.replayWindow) := by
  rw [BroadcastHub.replay_eq, (remembers_run reached topic).1, rtake_rtake]

theorem kept_of_rows {history : List (Published F)} {topic : Str} {n : Nat} (distinct : (rows topic history).Nodup)
    (same : (keptRows topic history).rtake n = (rows topic history).rtake n) :
    ∀ p ∈ (ofTopic topic history).rtake n, p.kept = true := by
  intro p recent
  have member : p.row ∈ (rows topic history).rtake n := by
    rw [rows, rtake_map]
    exact List.mem_map_of_mem recent
  rw [← same] at member
  obtain ⟨q, kept, sameRow⟩ := List.mem_map.mp (List.mem_of_mem_drop member)
  obtain ⟨there, kept⟩ := List.mem_filter.mp kept
  have samePublished : q = p :=
    List.inj_on_of_nodup_map distinct there (List.mem_of_mem_drop recent) sameRow
  rw [← samePublished]
  exact kept

/-- Replay gives the recent rows of a topic if each of them was kept when it was published, and the topic was
not removed since. If the rows are distinct, it gives them only then. -/
theorem replay_recent (reached : Machine.run (step setup) start events = some s) (topic : Str) (lastN : Nat) :
    let rows := publishedRows setup topic events
    let recent := min lastN (min setup.config.replayWindow rows.length)
    ((∀ p ∈ (ofTopic topic s.history).rtake recent, p.kept = true) →
      s.server.hub.replay topic lastN = rows.rtake recent) ∧
    (rows.Nodup → s.server.hub.replay topic lastN = rows.rtake recent →
      ∀ p ∈ (ofTopic topic s.history).rtake recent, p.kept = true) := by
  intro published recent
  have all : published = rows topic s.history := (rows_run reached topic).symm
  have count : published.length = (ofTopic topic s.history).length := by rw [all, rows, List.length_map]
  have window : recent = min (min lastN setup.config.replayWindow) published.length := (min_assoc ..).symm
  have recentRows : published.rtake recent = published.rtake (min lastN setup.config.replayWindow) := by
    rw [window, rtake_min_length]
  have recentHistory : (ofTopic topic s.history).rtake recent =
      (ofTopic topic s.history).rtake (min lastN setup.config.replayWindow) := by
    rw [window, count, rtake_min_length]
  rw [replay_kept reached, recentRows, recentHistory, all]
  constructor
  · intro kept
    rw [keptRows, rtake_map, rtake_filter kept, ← rtake_map, ← rows]
  · exact kept_of_rows

theorem replay_recent_trade :
    ∃ s, Machine.run (step tradesSetup) start [.connect, .subscribe 0 "A".toList, .publish trade] = some s ∧
      s.server.hub.replay "A".toList 5 = [tradeRow] := by
  obtain ⟨s, reached, kept⟩ : ∃ s,
      Machine.run (step tradesSetup) start [.connect, .subscribe 0 "A".toList, .publish trade] = some s ∧
        ∀ p ∈ ofTopic "A".toList s.history, p.kept = true := ⟨_, rfl, by decide +kernel⟩
  have rows : publishedRows tradesSetup "A".toList [.connect, .subscribe 0 "A".toList, .publish trade] =
      [tradeRow] := by decide +kernel
  have recent := (replay_recent reached "A".toList 5).1 fun p member => kept p (List.mem_of_mem_drop member)
  rw [rows] at recent
  exact ⟨s, reached, recent⟩

/-- Nobody listens when the row is published. -/
theorem replay_forgets :
    ∃ s, Machine.run (step tradesSetup) start [.connect, .publish trade, .subscribe 0 "A".toList] = some s ∧
      publishedRows tradesSetup "A".toList [.connect, .publish trade, .subscribe 0 "A".toList] = [tradeRow] ∧
      s.server.hub.replay "A".toList 5 = [] :=
  ⟨_, rfl, by decide +kernel, by decide +kernel⟩

end Recorded
end StreamServer
end QuestRouter.Stream
