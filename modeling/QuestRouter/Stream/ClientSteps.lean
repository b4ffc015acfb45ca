import QuestRouter.Stream.Client

/-!
# Steps of a client

What each step of a publisher, of the reader and of the fan-out task does, and the receivers that the client
owns.
-/

namespace QuestRouter.Stream
open Text Data Data.Broadcast

namespace Client

variable {F : Type}

/-! ### What a step does -/

variable {setup : StreamSetup F} {s t : Client F}

/-- The next step of a publish, by its stage. -/
inductive Publishes (setup : StreamSetup F) (s : Client F) (i : Nat) (p : Publish F) : Client F → Prop
  | load (stage : p.stage = .started) :
      Publishes setup s i p (s.setStage i p (.sawWildcard (0 < s.hub.wildcardSubscribers)))
  | turnBack {wildcard : Bool} (stage : p.stage = .sawWildcard wildcard)
      (nobody : wildcard = false ∧ ¬ 0 < s.hub.topicReceiverCount p.topic ∨ setup.encodeTick p.row = none) :
      Publishes setup s i p (s.setStage i p .returned)
  | allocate {wildcard : Bool} (stage : p.stage = .sawWildcard wildcard) {wire : Bytes}
      (encoded : setup.encodeTick p.row = some wire) {address : Nat} (free : s.uses address = false)
      (somebody : wildcard = true ∨ 0 < s.hub.topicReceiverCount p.topic) :
      Publishes setup s i p (s.setStage i p
        (if 0 < s.hub.topicReceiverCount p.topic then
          .toTopic ⟨⟨p.row, wire⟩, p.topic, address, i, p.earlier⟩ wildcard
        else .toWildcard ⟨⟨p.row, wire⟩, p.topic, address, i, p.earlier⟩))
  | sendTopic {tick : SharedTick F} {wildcard : Bool} (stage : p.stage = .toTopic tick wildcard) :
      Publishes setup s i p { s.setStage i p (.notifiesTopic tick wildcard) with
        hub := s.hub.sendToTopic setup.config tick.topic tick.row tick }
  | notifyTopic {tick : SharedTick F} {wildcard : Bool} (stage : p.stage = .notifiesTopic tick wildcard) :
      Publishes setup s i p (s.setStage i p (if wildcard then .toWildcard tick else .returned)).notify
  | sendWildcard {tick : SharedTick F} (stage : p.stage = .toWildcard tick) :
      Publishes setup s i p { s.setStage i p .notifiesWildcard with hub := s.hub.sendWildcard setup.config tick }
  | notifyWildcard (stage : p.stage = .notifiesWildcard) :
      Publishes setup s i p (s.setStage i p .returned).notify

theorem publisher_publishes {i address : Nat} {p : Publish F} (h : s.publisher setup i p address = some t) :
    Publishes setup s i p t := by
  unfold publisher at h
  split at h
  · rename_i stage
    cases h
    exact .load stage
  · rename_i wildcard stage
    dsimp only at h
    split at h
    · rename_i nobody
      cases h
      simp only [Bool.and_eq_true, Bool.not_eq_true', decide_eq_false_iff_not] at nobody
      exact .turnBack stage (.inl nobody)
    · rename_i somebody
      have some : wildcard = true ∨ 0 < s.hub.topicReceiverCount p.topic := by
        by_contra nobody
        push Not at nobody
        refine somebody ?_
        simpa using nobody
      split at h
      · rename_i encoded
        cases h
        exact .turnBack stage (.inr encoded)
      · rename_i wire encoded
        split at h
        · cases h
        · rename_i free
          cases h
          have allocated : Publishes setup s i p _ := .allocate stage encoded (Bool.eq_false_iff.mpr free) some
          simpa only [decide_eq_true_eq] using allocated
  · rename_i tick wildcard stage
    cases h
    exact .sendTopic stage
  · rename_i tick wildcard stage
    cases h
    exact .notifyTopic stage
  · rename_i tick stage
    cases h
    exact .sendWildcard stage
  · rename_i stage
    cases h
    exact .notifyWildcard stage
  · cases h

/-- The next access of the reader, by its stage. -/
inductive Reads (s : Client F) : Client F → Prop
  | insert {key : Str} {r : Nat} (stage : s.reader = .holding key r) (free : s.fanout.current ≠ some key) :
      Reads s (s.insert key r)
  | takeOut {key : Str} (stage : s.reader = .leaving key) (free : s.fanout.current ≠ some key) :
      Reads s { s.takeOut key with reader := .counting key }
  | count {key : Str} (stage : s.reader = .counting key) :
      Reads s { s with reader := if s.hub.lacksReceivers key then .removing key else .notifies }
  | remove {key : Str} (stage : s.reader = .removing key) :
      Reads s { s with hub := s.hub.removeTopic key, reader := .notifies }
  | notify (stage : s.reader = .notifies) : Reads s { s.notify with reader := .idle }

theorem readerStep_reads (h : s.readerStep = some t) : Reads s t := by
  unfold readerStep at h
  split at h
  · cases h
  · rename_i key r stage
    split at h
    · cases h
    · rename_i free
      cases h
      exact .insert stage free
  · rename_i key stage
    split at h
    · cases h
    · rename_i free
      cases h
      exact .takeOut stage free
  · rename_i key stage
    cases h
    exact .count stage
  · rename_i key stage
    cases h
    exact .remove stage
  · rename_i stage
    cases h
    exact .notify stage

/-- One `try_recv` of a drain, by what it finds. -/
inductive Receives (config : StreamConfig) (s : Client F) (enabled : Bool) (drain : Drain F) (key : Str) (r : Nat) :
    Client F → Prop
  | value {rc : Receiver (SharedTick F)} {tick : SharedTick F} {rest : List (SharedTick F)}
      (live : s.hub.bus.receiver r = some rc) (unread : rc.unread = tick :: rest) (kept : rc.missed = 0) :
      Receives config s enabled drain key r
        { s with
          hub := { s.hub with bus := s.hub.bus.update r { rc with unread := rest } }
          fanout := .draining enabled (Drain.take drain tick) }
  | lagged {rc : Receiver (SharedTick F)} (live : s.hub.bus.receiver r = some rc) (missed : rc.missed ≠ 0)
      (few : ¬ config.maxClientLagDrops ≤ s.lag rc.missed) :
      Receives config s enabled drain key r
        { s with
          hub := { s.hub with bus := s.hub.bus.update r { rc with missed := 0 } }
          lagDrops := s.lag rc.missed }
  | stopped {rc : Receiver (SharedTick F)} (live : s.hub.bus.receiver r = some rc) (missed : rc.missed ≠ 0)
      (many : config.maxClientLagDrops ≤ s.lag rc.missed) :
      Receives config s enabled drain key r
        (drained config { s with
          hub := { s.hub with bus := s.hub.bus.update r { rc with missed := 0 } }
          lagDrops := s.lag rc.missed } enabled drain)
  | nothing {rc : Receiver (SharedTick F)} (live : s.hub.bus.receiver r = some rc) (unread : rc.unread = [])
      (kept : rc.missed = 0) :
      Receives config s enabled drain key r
        { s with
          fanout := .draining enabled { drain with
            current := none
            visited := key :: drain.visited
            closed := if s.hub.hasSender rc.channel then drain.closed else drain.closed ++ [key] } }

theorem receive_receives {config : StreamConfig} {enabled : Bool} {drain : Drain F} {key : Str} {r : Nat}
    (h : s.receive config enabled drain key r = some t) : Receives config s enabled drain key r t := by
  unfold receive Bus.tryRecv at h
  cases live : s.hub.bus.receiver r with
  | none => simp [live] at h
  | some rc =>
    rw [live, Option.map_some] at h
    by_cases kept : rc.missed = 0
    · rw [if_pos kept] at h
      cases unread : rc.unread with
      | nil =>
        rw [unread] at h
        cases h
        have nothing : Receives config s enabled drain key r _ := .nothing live unread kept
        simpa [live] using nothing
      | cons tick rest =>
        rw [unread] at h
        cases h
        exact .value live unread kept
    · rw [if_neg kept] at h
      dsimp only at h
      split at h
      · rename_i many
        cases h
        exact .stopped live kept many
      · rename_i few
        cases h
        exact .lagged live kept few

inductive Does (setup : StreamSetup F) (s : Client F) : ClientEvent → Client F → Prop
  | publish (line : Bytes) : Does setup s (.publish line) (s.publish setup line)
  | publisher {i : Nat} (address : Nat) {p : Publish F} {t : Client F} (found : s.publishes[i]? = some p)
      (publishes : Publishes setup s i p t) : Does setup s (.publisher i address) t
  | subscribe (key : Str) (stage : s.reader = .idle) : Does setup s (.subscribe key) (s.subscribe key)
  | unsubscribe (key : Str) (stage : s.reader = .idle) : Does setup s (.unsubscribe key) (s.unsubscribe key)
  | reader {t : Client F} (reads : Reads s t) : Does setup s .reader t
  | look (stage : s.fanout = .checking) :
      Does setup s .look { s with fanout := .draining false (.new s.subscriptions.keys) }
  | sleep (stage : s.fanout = .checking) : Does setup s .look s
  | visit {enabled : Bool} {drain : Drain F} {key : Str} (stage : s.fanout = .draining enabled drain)
      (free : drain.current = none) (held : key ∈ s.subscriptions.keys) (fresh : key ∉ drain.visited) :
      Does setup s (.visit key) { s with fanout := .draining enabled { drain with current := some key } }
  | receive {enabled : Bool} {drain : Drain F} {key : Str} {r : Nat} {t : Client F}
      (stage : s.fanout = .draining enabled drain) (current : drain.current = some key)
      (held : s.subscriptions.get key = some r) (receives : Receives setup.config s enabled drain key r t) :
      Does setup s .receive t
  | finish {enabled : Bool} {drain : Drain F} (stage : s.fanout = .draining enabled drain)
      (free : drain.current = none)
      (visited : ∀ key ∈ drain.start, key ∈ s.subscriptions.keys → key ∈ drain.visited) :
      Does setup s .finish ((drain.closed.foldl takeOut s).drained setup.config enabled drain)
  | enable (stage : s.fanout = .enabling) : Does setup s .enable
      { s with woken := false, inserted := [], fanout := .draining true (.new s.subscriptions.keys) }
  | awake (stage : s.fanout = .awaiting) (woken : s.woken = true) :
      Does setup s .awake { s with fanout := .checking }

theorem step_does {e : ClientEvent} (h : step setup s e = some t) : Does setup s e t := by
  unfold step at h
  cases e with
  | publish line => cases h; exact .publish line
  | publisher i address =>
    obtain ⟨p, found, h⟩ := Option.bind_eq_some_iff.mp h
    exact .publisher address found (publisher_publishes h)
  | subscribe key =>
    dsimp only at h
    split at h
    · rename_i stage
      cases h
      exact .subscribe key stage
    · cases h
  | unsubscribe key =>
    dsimp only at h
    split at h
    · rename_i stage
      cases h
      exact .unsubscribe key stage
    · cases h
  | reader => exact .reader (readerStep_reads h)
  | look =>
    dsimp only at h
    split at h
    · rename_i stage
      split at h
      · cases h
        exact .sleep stage
      · cases h
        exact .look stage
    · cases h
  | visit key =>
    dsimp only at h
    split at h
    · rename_i enabled drain stage
      split at h
      · rename_i visits
        cases h
        exact .visit stage visits.1 visits.2.1 visits.2.2
      · cases h
    · cases h
  | receive =>
    dsimp only at h
    split at h
    · rename_i enabled drain stage
      obtain ⟨key, current, h⟩ := Option.bind_eq_some_iff.mp h
      obtain ⟨r, held, h⟩ := Option.bind_eq_some_iff.mp h
      exact .receive stage current held (receive_receives h)
    · cases h
  | finish =>
    dsimp only at h
    split at h
    · rename_i enabled drain stage
      split at h
      · rename_i finishes
        cases h
        exact .finish stage finishes.1 finishes.2
      · cases h
    · cases h
  | enable =>
    dsimp only at h
    split at h
    · rename_i stage
      cases h
      exact .enable stage
    · cases h
  | awake =>
    dsimp only at h
    split at h
    · rename_i stage
      split at h
      · rename_i woken
        cases h
        exact .awake stage woken
      · cases h
    · cases h

/-! ### Receivers of the client -/

/-- Every receiver is in one entry, or about to be inserted. -/
structure Owned (s : Client F) : Prop where
  below : ∀ key r, s.subscriptions.get key = some r → r < s.hub.bus.next
  apart : ∀ key key' r, s.subscriptions.get key = some r → s.subscriptions.get key' = some r → key = key'
  held : ∀ key r, s.reader = .holding key r → r < s.hub.bus.next ∧ ∀ key', s.subscriptions.get key' ≠ some r

theorem owned_start : Owned (start : Client F) := ⟨nofun, nofun, nofun⟩

theorem Owned.frame (owned : Owned s) (next : t.hub.bus.next = s.hub.bus.next)
    (subscriptions : ∀ key r, t.subscriptions.get key = some r → s.subscriptions.get key = some r)
    (reader : ∀ key r, t.reader = .holding key r → s.reader = .holding key r) : Owned t := by
  refine ⟨fun key r found => ?_, fun key key' r first second => ?_, fun key r holds => ?_⟩
  · rw [next]
    exact owned.below key r (subscriptions key r found)
  · exact owned.apart key key' r (subscriptions key r first) (subscriptions key' r second)
  · obtain ⟨below, free⟩ := owned.held key r (reader key r holds)
    exact ⟨next ▸ below, fun key' found => free key' (subscriptions key' r found)⟩

theorem Owned.aside (owned : Owned s) (next : t.hub.bus.next = s.hub.bus.next)
    (subscriptions : t.subscriptions = s.subscriptions) (reader : t.reader = s.reader) : Owned t :=
  owned.frame next (fun _ _ found => subscriptions ▸ found) fun _ _ holds => reader ▸ holds

theorem unsubscribeWildcard_bus {ρ τ : Type} (hub : BroadcastHub ρ τ) : hub.unsubscribeWildcard.bus = hub.bus := by
  unfold BroadcastHub.unsubscribeWildcard
  rfl

@[simp] theorem dropHeld_next {ρ τ : Type} (hub : BroadcastHub ρ τ) (held : Option Nat) :
    (hub.dropHeld held).bus.next = hub.bus.next := by
  cases held <;> rfl

theorem dropHeld_unread {ρ τ : Type} (hub : BroadcastHub ρ τ) (held : Option Nat) (r : Nat) :
    (hub.dropHeld held).bus.unread r = if held = some r then [] else hub.bus.unread r := by
  cases held with
  | none => rfl
  | some r' =>
    change (hub.bus.drop r').unread r = _
    rw [Bus.unread_drop]
    simp only [Option.some.injEq, eq_comm]

theorem takeOut_get (s : Client F) (key other : Str) :
    (s.takeOut key).subscriptions.get other = if other = key then none else s.subscriptions.get other :=
  HashMap.get_erase _ _ _

theorem Owned.takeOut (owned : Owned s) (key : Str) : Owned (s.takeOut key) := by
  refine owned.frame (dropHeld_next _ _) (fun other r found => ?_) fun _ _ holds => holds
  rw [takeOut_get] at found
  split at found
  · cases found
  · exact found

/-- Taking an entry out drops its receiver and leaves the others. -/
theorem takeOut_unread (owned : Owned s) {key other : Str} {r : Nat}
    (found : s.subscriptions.get other = some r) (different : other ≠ key) :
    (s.takeOut key).hub.bus.unread r = s.hub.bus.unread r := by
  change (s.hub.dropHeld _).bus.unread r = _
  rw [dropHeld_unread, if_neg]
  exact fun same => different (owned.apart other key r found same)

theorem takeOuts_get (s : Client F) (keys : List Str) (other : Str) :
    (keys.foldl Client.takeOut s).subscriptions.get other =
      if other ∈ keys then none else s.subscriptions.get other := by
  induction keys generalizing s with
  | nil => rfl
  | cons key keys ih =>
    rw [List.foldl_cons, ih, takeOut_get]
    by_cases same : other = key <;> by_cases later : other ∈ keys <;> simp [same, later]

theorem Owned.takeOuts (owned : Owned s) (keys : List Str) : Owned (keys.foldl Client.takeOut s) := by
  induction keys generalizing s with
  | nil => exact owned
  | cons key keys ih => exact ih (owned.takeOut key)

theorem takeOuts_unread (owned : Owned s) (keys : List Str) {other : Str} {r : Nat}
    (found : s.subscriptions.get other = some r) (stays : other ∉ keys) :
    (keys.foldl Client.takeOut s).hub.bus.unread r = s.hub.bus.unread r := by
  induction keys generalizing s with
  | nil => rfl
  | cons key keys ih =>
    obtain ⟨different, later⟩ := List.ne_and_not_mem_of_not_mem_cons stays
    have still : (s.takeOut key).subscriptions.get other = some r := by rw [takeOut_get, if_neg different, found]
    rw [List.foldl_cons, ih (owned.takeOut key) still later, takeOut_unread owned found different]

/-- Only the map, the receivers and the drain change. -/
theorem takeOuts_same (s : Client F) (keys : List Str) :
    let t := keys.foldl Client.takeOut s
    t.publishes = s.publishes ∧ t.reader = s.reader ∧ t.lagDrops = s.lagDrops ∧ t.woken = s.woken ∧
      t.queued = s.queued ∧ t.inserted = s.inserted := by
  induction keys generalizing s with
  | nil => exact ⟨rfl, rfl, rfl, rfl, rfl, rfl⟩
  | cons key keys ih => exact ih (s.takeOut key)

theorem Owned.insert (owned : Owned s) {key : Str} {r : Nat} (stage : s.reader = .holding key r) :
    Owned (s.insert key r) := by
  obtain ⟨below, free⟩ := owned.held key r stage
  have entry : ∀ {other r'}, (s.insert key r).subscriptions.get other = some r' →
      other = key ∧ r' = r ∨ other ≠ key ∧ s.subscriptions.get other = some r' := by
    intro other r' found
    change HashMap.get (AList.insert key r s.subscriptions) other = some r' at found
    by_cases same : other = key
    · subst same
      rw [HashMap.get_insert] at found
      exact .inl ⟨rfl, (Option.some.inj found).symm⟩
    · rw [HashMap.get_insert_ne _ _ same] at found
      exact .inr ⟨same, found⟩
  have next : (s.insert key r).hub.bus.next = s.hub.bus.next := dropHeld_next _ _
  refine ⟨fun other r' found => ?_, fun other other' r' first second => ?_, nofun⟩
  · rw [next]
    rcases entry found with ⟨_, rfl⟩ | ⟨_, was⟩
    · exact below
    · exact owned.below other r' was
  · rcases entry first with ⟨rfl, rfl⟩ | ⟨_, was⟩ <;> rcases entry second with ⟨rfl, again⟩ | ⟨_, was'⟩
    · rfl
    · exact (free other' was').elim
    · exact (free other (again ▸ was)).elim
    · exact owned.apart other other' r' was was'

theorem subscribeTopic_fst {ρ τ : Type} (hub : BroadcastHub ρ τ) (key : Str) :
    (hub.subscribeTopic key).1 = hub.bus.next := by
  unfold BroadcastHub.subscribeTopic
  split
  · rfl
  · exact BroadcastHub.subscribe_fst hub key

theorem subscribeTopic_next {ρ τ : Type} (hub : BroadcastHub ρ τ) (key : Str) :
    (hub.subscribeTopic key).2.bus.next = hub.bus.next + 1 := by
  unfold BroadcastHub.subscribeTopic
  split
  · rfl
  · rw [BroadcastHub.subscribe_bus, Bus.subscribe_next]

theorem subscribeTopic_unread {ρ τ : Type} (hub : BroadcastHub ρ τ) (key : Str) (r : Nat) :
    (hub.subscribeTopic key).2.bus.unread r = hub.bus.unread r := by
  unfold BroadcastHub.subscribeTopic
  split
  · exact Bus.unread_subscribe _ _ _
  · rw [BroadcastHub.subscribe_bus, Bus.unread_subscribe]

theorem Owned.subscribe (owned : Owned s) (key : Str) : Owned (s.subscribe key) := by
  have next : (s.subscribe key).hub.bus.next = s.hub.bus.next + 1 := subscribeTopic_next s.hub key
  refine ⟨fun other r found => ?_, owned.apart, fun other r holds => ?_⟩
  · rw [next]
    exact Nat.lt_succ_of_lt (owned.below other r found)
  · have new : r = s.hub.bus.next := by
      cases holds
      exact subscribeTopic_fst s.hub key
    rw [next, new]
    exact ⟨Nat.lt_succ_self _, fun other' found => Nat.lt_irrefl _ (owned.below other' _ found)⟩

theorem publisher_owned {i : Nat} {p : Publish F} (owned : Owned s) (does : Publishes setup s i p t) : Owned t := by
  have same : ∀ stage, Owned (s.setStage i p stage) := fun _ => owned.aside rfl rfl rfl
  cases does with
  | load stage => exact same _
  | turnBack stage nobody => exact same _
  | allocate stage encoded free somebody => exact same _
  | @sendTopic tick wildcard stage =>
    refine owned.aside ?_ rfl rfl
    change (s.hub.sendToTopic _ _ _ _).bus.next = _
    rw [BroadcastHub.sendToTopic_bus]
    rfl
  | notifyTopic stage => exact owned.aside rfl rfl rfl
  | sendWildcard stage => exact owned.aside rfl rfl rfl
  | notifyWildcard stage => exact owned.aside rfl rfl rfl

theorem reader_owned (owned : Owned s) (reads : Reads s t) : Owned t := by
  cases reads with
  | insert stage free => exact owned.insert stage
  | takeOut stage free => exact (owned.takeOut _).frame rfl (fun _ _ found => found) nofun
  | @count key stage =>
    refine owned.frame rfl (fun _ _ found => found) fun other r holds => ?_
    dsimp only at holds
    split at holds <;> cases holds
  | remove stage => exact owned.frame rfl (fun _ _ found => found) nofun
  | notify stage => exact owned.frame rfl (fun _ _ found => found) nofun

theorem drained_owned (owned : Owned s) (config : StreamConfig) (enabled : Bool) (drain : Drain F) :
    Owned (s.drained config enabled drain) := by
  unfold drained
  split <;> exact owned.aside rfl rfl rfl

theorem Owned.step {e : ClientEvent} (owned : Owned s) (h : step setup s e = some t) : Owned t := by
  have same : ∀ fanout : FanoutStage F, Owned { s with fanout } := fun _ => owned.aside rfl rfl rfl
  cases step_does h with
  | publish line =>
    unfold Client.publish
    split
    · exact owned
    · exact owned.aside rfl rfl rfl
  | publisher address found publishes => exact publisher_owned owned publishes
  | subscribe key stage => exact owned.subscribe key
  | unsubscribe key stage =>
    unfold Client.unsubscribe
    split
    · refine owned.frame ?_ (fun _ _ found => found) nofun
      dsimp only
      rw [unsubscribeWildcard_bus]
    · exact owned.frame rfl (fun _ _ found => found) nofun
  | reader reads => exact reader_owned owned reads
  | look stage => exact same _
  | sleep stage => exact owned
  | visit stage free held fresh => exact same _
  | receive stage current held receives =>
    cases receives with
    | value live unread kept => exact owned.aside rfl rfl rfl
    | lagged live missed few => exact owned.aside rfl rfl rfl
    | stopped live missed many =>
      refine drained_owned ?_ _ _ _
      exact owned.aside rfl rfl rfl
    | nothing live unread kept => exact same _
  | finish stage free visited => exact drained_owned (owned.takeOuts _) _ _ _
  | enable stage => exact owned.aside rfl rfl rfl
  | awake stage woken => exact same _

end Client
end QuestRouter.Stream
