import QuestRouter.Stream.HubFacts
import QuestRouter.Stream.Socket

/-!
# The wildcard counter

The counter moves with every control message for all topics and with the cleanup of a connection that holds the
wildcard receiver, whether or not the map changes. It is exact as long as each such message changes the map of
an open connection.
-/

namespace QuestRouter.Stream
open Text Data Data.Broadcast

namespace BroadcastHub

variable {ρ τ : Type}

theorem subscribeTopic_wildcardSubscribers (hub : BroadcastHub ρ τ) (topic : Str) :
    (hub.subscribeTopic topic).2.wildcardSubscribers =
      if topic = wildcardTopic then (hub.wildcardSubscribers + 1) % 2 ^ 64 else hub.wildcardSubscribers := by
  unfold subscribeTopic
  split
  · rfl
  · exact subscribe_wildcardSubscribers hub topic

@[simp] theorem dropHeld_wildcardSubscribers (hub : BroadcastHub ρ τ) (held : Option Nat) :
    (hub.dropHeld held).wildcardSubscribers = hub.wildcardSubscribers := by
  cases held <;> rfl

@[simp] theorem removeSubscriber_wildcardSubscribers (hub : BroadcastHub ρ τ) (topic : Str) :
    (hub.removeSubscriber topic).wildcardSubscribers = hub.wildcardSubscribers := by
  unfold removeSubscriber
  split <;> rfl

theorem unsubscribeTopic_wildcardSubscribers (hub : BroadcastHub ρ τ) (held : Option Nat) (topic : Str) :
    (hub.unsubscribeTopic held topic).wildcardSubscribers =
      if topic = wildcardTopic then (hub.wildcardSubscribers + (2 ^ 64 - 1)) % 2 ^ 64
      else hub.wildcardSubscribers := by
  unfold unsubscribeTopic
  dsimp only
  rw [removeSubscriber_wildcardSubscribers, dropHeld_wildcardSubscribers]
  split <;> rfl

theorem cleanup_wildcardSubscribers (hub : BroadcastHub ρ τ) {topics : List Str} (distinct : topics.Nodup) :
    (hub.cleanup topics).wildcardSubscribers =
      if wildcardTopic ∈ topics then (hub.wildcardSubscribers + (2 ^ 64 - 1)) % 2 ^ 64
      else hub.wildcardSubscribers := by
  unfold cleanup
  induction topics generalizing hub with
  | nil => rfl
  | cons topic topics ih =>
    obtain ⟨fresh, distinct⟩ := List.nodup_cons.mp distinct
    rw [List.foldl_cons, ih _ distinct]
    by_cases same : topic = wildcardTopic
    · rw [if_pos same, if_neg (same ▸ fresh), if_pos (same ▸ List.mem_cons_self)]
      rfl
    · rw [if_neg same, removeSubscriber_wildcardSubscribers]
      have mem : wildcardTopic ∈ topic :: topics ↔ wildcardTopic ∈ topics := by
        rw [List.mem_cons]
        exact or_iff_right (Ne.symm same)
      simp only [mem]

@[simp] theorem publish_wildcardSubscribers {F : Type} (setup : StreamSetup F)
    (hub : BroadcastHub (IlpRow F) (StreamTick F)) (line : Bytes) :
    (hub.publish setup line).wildcardSubscribers = hub.wildcardSubscribers := by
  unfold publish
  split
  · rfl
  split
  · rfl
  dsimp only
  split
  · rfl
  split
  · rfl
  split <;> split <;> simp [sendWildcard]

end BroadcastHub

namespace StreamServer

variable {F : Type} {setup : StreamSetup F} {s t : StreamServer F}

def countedWildcard (conn : Connection) : Bool := conn.isOpen && conn.holdsWildcard

/-- The open connections whose map holds a wildcard receiver. -/
def wildcardHolders (s : StreamServer F) : Nat := s.connections.countP countedWildcard

def WildcardExact (s : StreamServer F) : Prop := s.hub.wildcardSubscribers = s.wildcardHolders

/-- A control message for all topics comes on an open connection, and changes what its map holds. -/
def WildcardBalanced (s : StreamServer F) : SocketEvent → Prop
  | .subscribe i topic => topic = wildcardTopic → ∀ conn ∈ s.connections[i]?,
    conn.isOpen = true ∧ conn.holdsWildcard = false ∧ s.hub.wildcardSubscribers + 1 < 2 ^ 64
  | .unsubscribe i topic => topic = wildcardTopic → ∀ conn ∈ s.connections[i]?,
    conn.isOpen = true ∧ conn.holdsWildcard = true
  | _ => True

instance (s : StreamServer F) : ∀ e, Decidable (WildcardBalanced s e)
  | .subscribe i topic => inferInstanceAs (Decidable (topic = wildcardTopic → ∀ conn ∈ s.connections[i]?,
    conn.isOpen = true ∧ conn.holdsWildcard = false ∧ s.hub.wildcardSubscribers + 1 < 2 ^ 64))
  | .unsubscribe i topic => inferInstanceAs (Decidable (topic = wildcardTopic → ∀ conn ∈ s.connections[i]?,
    conn.isOpen = true ∧ conn.holdsWildcard = true))
  | .connect | .publish _ | .readerEnds _ | .fanoutEnds _ | .close _ => .isTrue trivial

/-! ### One step -/

theorem holders_set {i : Nat} {conn : Connection} (found : s.connections[i]? = some conn) (conn' : Connection)
    (hub : BroadcastHub (IlpRow F) (StreamTick F)) :
    wildcardHolders ⟨hub, s.connections.set i conn'⟩ + (countedWildcard conn).toNat =
      s.wildcardHolders + (countedWildcard conn').toNat :=
  Machine.countP_replaced countedWildcard found conn'

theorem settle_exact {i : Nat} {conn : Connection} (found : s.connections[i]? = some conn)
    (hub : BroadcastHub (IlpRow F) (StreamTick F)) (conn' : Connection) :
    (s.settle i hub conn').hub.wildcardSubscribers = hub.wildcardSubscribers ∧
      (s.settle i hub conn').wildcardHolders + (countedWildcard conn).toNat =
        s.wildcardHolders + (countedWildcard conn').toNat := by
  unfold settle
  split
  · rename_i gone
    have closed : conn'.isOpen = false := Connection.isGone_closed gone
    refine ⟨rfl, ?_⟩
    rw [holders_set found]
    simp [countedWildcard, closed]
  · exact ⟨rfl, holders_set found _ _⟩

theorem holdsWildcard_insert (conn : Connection) (topic : Str) (rx : Nat) :
    ({ conn with subscriptions := conn.subscriptions.insert topic rx } : Connection).holdsWildcard =
      if topic = wildcardTopic then true else conn.holdsWildcard := by
  unfold Connection.holdsWildcard
  dsimp only
  split
  · rename_i same
    rw [same, HashMap.get_insert]
    rfl
  · rename_i different
    rw [HashMap.get_insert_ne _ _ (Ne.symm different)]

theorem holdsWildcard_erase (conn : Connection) (topic : Str) :
    ({ conn with subscriptions := conn.subscriptions.erase topic } : Connection).holdsWildcard =
      if topic = wildcardTopic then false else conn.holdsWildcard := by
  unfold Connection.holdsWildcard
  dsimp only
  rw [HashMap.get_erase]
  split
  · rename_i same
    rw [if_pos same.symm]
    rfl
  · rename_i different
    rw [if_neg (Ne.symm different)]

theorem holdsWildcard_iff (conn : Connection) :
    conn.holdsWildcard = true ↔ wildcardTopic ∈ conn.subscriptions.keys := by
  unfold Connection.holdsWildcard HashMap.get
  rw [AList.lookup_isSome, AList.mem_keys]

theorem step_counts {e : SocketEvent} (small : s.hub.wildcardSubscribers < 2 ^ 64) (exact : WildcardExact s)
    (h : step setup s e = some t) :
    t.hub.wildcardSubscribers < 2 ^ 64 ∧ (WildcardExact t ↔ WildcardBalanced s e) := by
  unfold WildcardExact at exact ⊢
  cases step_does h with
  | connect =>
    refine ⟨small, iff_of_true ?_ trivial⟩
    rw [exact]
    simp [wildcardHolders, List.countP_append, countedWildcard, Connection.new, Connection.holdsWildcard, HashMap.get]
  | publish line =>
    rw [BroadcastHub.publish_wildcardSubscribers]
    exact ⟨small, iff_of_true exact trivial⟩
  | @subscribe i conn found reads topic =>
    have counter : (s.subscribe i conn topic).hub.wildcardSubscribers = if topic = wildcardTopic then
        (s.hub.wildcardSubscribers + 1) % 2 ^ 64 else s.hub.wildcardSubscribers := by
      unfold subscribe
      dsimp only
      rw [BroadcastHub.dropHeld_wildcardSubscribers, BroadcastHub.subscribeTopic_wildcardSubscribers]
    have holders := holders_set found
      { conn with subscriptions := conn.subscriptions.insert topic (s.hub.subscribeTopic topic).1 }
      ((s.hub.subscribeTopic topic).2.dropHeld (conn.subscriptions.get topic))
    have balanced : WildcardBalanced s (.subscribe i topic) ↔ (topic = wildcardTopic →
        conn.isOpen = true ∧ conn.holdsWildcard = false ∧ s.hub.wildcardSubscribers + 1 < 2 ^ 64) := by
      simp [WildcardBalanced, found]
    change wildcardHolders (s.subscribe i conn topic) + _ = _ at holders
    rw [counter, balanced]
    simp only [countedWildcard, holdsWildcard_insert] at holders
    by_cases wild : topic = wildcardTopic
    · subst wild
      simp only [↓reduceIte, forall_const] at holders ⊢
      refine ⟨Nat.mod_lt _ (Nat.two_pow_pos 64), ?_⟩
      cases here : conn.isOpen <;> cases holds : conn.holdsWildcard <;>
        simp only [here, holds, Bool.and_true, Bool.and_false, Bool.toNat_true, Bool.toNat_false] at holders <;>
        simp <;> omega
    · simp only [if_neg wild] at holders ⊢
      exact ⟨small, iff_of_true (by omega) fun same => (wild same).elim⟩
  | @unsubscribe i conn found reads topic =>
    have counter : (s.unsubscribe i conn topic).hub.wildcardSubscribers = if topic = wildcardTopic then
        (s.hub.wildcardSubscribers + (2 ^ 64 - 1)) % 2 ^ 64 else s.hub.wildcardSubscribers :=
      BroadcastHub.unsubscribeTopic_wildcardSubscribers ..
    have holders := holders_set found { conn with subscriptions := conn.subscriptions.erase topic }
      (s.hub.unsubscribeTopic (conn.subscriptions.get topic) topic)
    have balanced : WildcardBalanced s (.unsubscribe i topic) ↔ (topic = wildcardTopic →
        conn.isOpen = true ∧ conn.holdsWildcard = true) := by
      simp [WildcardBalanced, found]
    change wildcardHolders (s.unsubscribe i conn topic) + _ = _ at holders
    rw [counter, balanced]
    simp only [countedWildcard, holdsWildcard_erase] at holders
    by_cases wild : topic = wildcardTopic
    · subst wild
      simp only [↓reduceIte, forall_const] at holders ⊢
      refine ⟨Nat.mod_lt _ (Nat.two_pow_pos 64), ?_⟩
      cases here : conn.isOpen <;> cases holds : conn.holdsWildcard <;>
        simp only [here, holds, Bool.and_true, Bool.and_false, Bool.toNat_true, Bool.toNat_false] at holders <;>
        simp <;> omega
    · simp only [if_neg wild] at holders ⊢
      exact ⟨small, iff_of_true (by omega) fun same => (wild same).elim⟩
  | @readerEnds i conn found reads =>
    obtain ⟨counter, holders⟩ := settle_exact found s.hub { conn with reader := false }
    rw [counter]
    refine ⟨small, iff_of_true ?_ trivial⟩
    change _ + _ = _ + (countedWildcard conn).toNat at holders
    omega
  | @fanoutEnds i conn found forwards =>
    obtain ⟨counter, holders⟩ := settle_exact found s.hub { conn with fanout := false }
    rw [counter]
    refine ⟨small, iff_of_true ?_ trivial⟩
    change _ + _ = _ + (countedWildcard conn).toNat at holders
    omega
  | @close i conn found here ended =>
    obtain ⟨counter, holders⟩ := settle_exact found (s.hub.cleanup conn.subscriptions.keys)
      { conn with isOpen := false }
    rw [BroadcastHub.cleanup_wildcardSubscribers _ (AList.keys_nodup _)] at counter
    simp only [countedWildcard, here, Bool.true_and, Bool.false_and, Bool.toNat_false] at holders
    rw [counter]
    cases holds : conn.holdsWildcard with
    | false =>
      rw [if_neg (by rw [← holdsWildcard_iff, holds]; exact Bool.false_ne_true)]
      simp only [holds, Bool.toNat_false] at holders
      exact ⟨small, iff_of_true (by omega) trivial⟩
    | true =>
      rw [if_pos ((holdsWildcard_iff conn).mp holds)]
      simp only [holds, Bool.toNat_true] at holders
      exact ⟨Nat.mod_lt _ (Nat.two_pow_pos 64), iff_of_true (by omega) trivial⟩

/-! ### Every run -/

/-- After every event of a run the counter is the number of open connections that hold a wildcard receiver, if
and only if every control message for all topics subscribes or unsubscribes an open connection. -/
theorem wildcard_counter_exact_iff (setup : StreamSetup F) (events : List SocketEvent) :
    Machine.Always (step setup) WildcardExact start events ↔
      Machine.Meets (step setup) WildcardBalanced start events := by
  refine Machine.always_iff_meets (I := fun s => s.hub.wildcardSubscribers < 2 ^ 64)
    (fun s e t small exact balanced h => ?_) (fun s e t small exact h next => ?_) (Nat.two_pow_pos 64) rfl
  · obtain ⟨kept, counts⟩ := step_counts small exact h
    exact ⟨kept, counts.mpr balanced⟩
  · exact (step_counts small exact h).2.mp next

/-- Every line is dropped. -/
def silentSetup : StreamSetup Unit := ⟨.default, ⟨∅⟩, fun _ => none, fun _ => none⟩

/-- Two subscriptions to all topics on one connection count twice; one taken back that was never made wraps. -/
theorem wildcard_counter_off :
    (∃ s, Machine.run (step silentSetup) start
        [.connect, .subscribe 0 wildcardTopic, .subscribe 0 wildcardTopic] = some s ∧
      s.hub.wildcardSubscribers = 2 ∧ s.wildcardHolders = 1) ∧
    (∃ s, Machine.run (step silentSetup) start [.connect, .unsubscribe 0 wildcardTopic] = some s ∧
      s.hub.wildcardSubscribers = 2 ^ 64 - 1 ∧ s.wildcardHolders = 0) :=
  ⟨⟨_, rfl, by decide, by decide⟩, ⟨_, rfl, by decide, by decide⟩⟩

end StreamServer
end QuestRouter.Stream
