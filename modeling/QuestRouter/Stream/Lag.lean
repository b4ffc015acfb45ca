import QuestRouter.Data.Ledger
import QuestRouter.Stream.Order

/-!
# Clients that lag

A client that does not read fast enough loses ticks, its receivers tell it how many, and it is dropped when these are
too many. With a ledger beside it every tick that its receivers were sent is read, unread, or among the lost ones, and
the client's counter is what it was told.
-/

namespace QuestRouter.Stream
open Text Data Data.Broadcast

namespace BroadcastHub

variable {ρ τ : Type} (hub : BroadcastHub ρ τ)

/-- The channel that a subscription to a key is on. -/
def channelFor (key : Str) : Nat := if key = wildcardTopic then wildcard else (hub.getOrCreateTopic key).1.tx

theorem subscribeTopic_bus (key : Str) : (hub.subscribeTopic key).2.bus = hub.bus.subscribe (hub.channelFor key) := by
  unfold subscribeTopic channelFor
  split
  · rfl
  · exact subscribe_bus hub key

theorem dropHeld_bus (held : Option Nat) : (hub.dropHeld held).bus = (held.toList.map .drop).foldl Bus.use hub.bus := by
  cases held <;> rfl

end BroadcastHub

namespace Client

variable {F : Type} {setup : StreamSetup F} {s t : Client F}

/-! ### Uses of the channels -/

/-- The receivers that go with these entries of a map. -/
def dropped (subscriptions : HashMap Str Nat) : List Str → List Nat
  | [] => []
  | key :: keys => (subscriptions.get key).toList ++ dropped (subscriptions.erase key) keys

/-- How a step uses the channels. -/
def busUses (setup : StreamSetup F) (s : Client F) : ClientEvent → List (BusUse (SharedTick F))
  | .publisher i _ =>
    match (s.publishes[i]?).map Publish.stage with
    | some (.toTopic tick _) => [.send setup.config.capacity (s.hub.getOrCreateTopic tick.topic).1.tx tick]
    | some (.toWildcard tick) => [.send setup.config.capacity BroadcastHub.wildcard tick]
    | _ => []
  | .subscribe key => [.subscribe (s.hub.channelFor key)]
  | .reader =>
    match s.reader with
    | .holding key _ => (dropped s.subscriptions [key]).map .drop
    | .leaving key => (dropped s.subscriptions [key]).map .drop
    | _ => []
  | .receive =>
    match s.fanout with
    | .draining _ drain => (drain.current.bind s.subscriptions.get).toList.map .tryRecv
    | _ => []
  | .finish =>
    match s.fanout with
    | .draining _ drain => (dropped s.subscriptions drain.closed).map .drop
    | _ => []
  | _ => []

theorem takeOuts_bus (s : Client F) (keys : List Str) :
    (keys.foldl takeOut s).hub.bus = ((dropped s.subscriptions keys).map .drop).foldl Bus.use s.hub.bus := by
  induction keys generalizing s with
  | nil => rfl
  | cons key keys ih =>
    rw [List.foldl_cons, ih, dropped, List.map_append, List.foldl_append, ← BroadcastHub.dropHeld_bus]
    rfl

theorem drained_hub (config : StreamConfig) (s : Client F) (enabled : Bool) (drain : Drain F) :
    (s.drained config enabled drain).hub = s.hub := by
  unfold drained
  split <;> rfl

theorem publisher_bus {i : Nat} {p : Publish F} (address : Nat) (found : s.publishes[i]? = some p)
    (publishes : Publishes setup s i p t) :
    t.hub.bus = (busUses setup s (.publisher i address)).foldl Bus.use s.hub.bus := by
  cases publishes with
  | sendTopic stage =>
    simp only [busUses, found, Option.map_some, stage, List.foldl_cons, List.foldl_nil]
    exact BroadcastHub.sendToTopic_bus ..
  | sendWildcard stage =>
    simp only [busUses, found, Option.map_some, stage, List.foldl_cons, List.foldl_nil]
    rfl
  | load stage => simp only [busUses, found, Option.map_some, stage]; rfl
  | turnBack stage nobody => simp only [busUses, found, Option.map_some, stage]; rfl
  | allocate stage encoded free somebody => simp only [busUses, found, Option.map_some, stage]; rfl
  | notifyTopic stage => simp only [busUses, found, Option.map_some, stage]; rfl
  | notifyWildcard stage => simp only [busUses, found, Option.map_some, stage]; rfl

theorem reads_bus (reads : Reads s t) : t.hub.bus = (busUses setup s .reader).foldl Bus.use s.hub.bus := by
  cases reads with
  | insert stage free =>
    simp only [busUses, stage, dropped, List.append_nil]
    exact BroadcastHub.dropHeld_bus ..
  | takeOut stage free =>
    simp only [busUses, stage, dropped, List.append_nil]
    exact BroadcastHub.dropHeld_bus ..
  | count stage => simp only [busUses, stage]; rfl
  | remove stage => simp only [busUses, stage]; rfl
  | notify stage => simp only [busUses, stage]; rfl

theorem receives_bus {config : StreamConfig} {enabled : Bool} {drain : Drain F} {key : Str} {r : Nat}
    (receives : Receives config s enabled drain key r t) : t.hub.bus = s.hub.bus.use (.tryRecv r) := by
  unfold Bus.use
  dsimp only
  cases receives with
  | value live unread kept => simp [Bus.tryRecv, live, unread, kept]
  | lagged live missed few => simp [Bus.tryRecv, live, missed]
  | stopped live missed many =>
    rw [drained_hub]
    simp [Bus.tryRecv, live, missed]
  | nothing live unread kept => simp [Bus.tryRecv, live, unread, kept]

theorem busUses_receive {enabled : Bool} {drain : Drain F} {key : Str} {r : Nat}
    (stage : s.fanout = .draining enabled drain) (current : drain.current = some key)
    (held : s.subscriptions.get key = some r) : busUses setup s .receive = [.tryRecv r] := by
  simp [busUses, stage, current, held]

theorem step_bus {e : ClientEvent} (h : step setup s e = some t) :
    t.hub.bus = (busUses setup s e).foldl Bus.use s.hub.bus := by
  cases step_does h with
  | publish line =>
    unfold publish
    split <;> rfl
  | publisher address found publishes => exact publisher_bus address found publishes
  | subscribe key stage => exact BroadcastHub.subscribeTopic_bus s.hub key
  | unsubscribe key stage =>
    unfold unsubscribe
    split
    · exact unsubscribeWildcard_bus s.hub
    · rfl
  | reader reads => exact reads_bus reads
  | look stage => rfl
  | sleep stage => rfl
  | visit stage free held fresh => rfl
  | receive stage current held receives =>
    rw [busUses_receive stage current held]
    exact receives_bus receives
  | finish stage free visited =>
    rw [drained_hub, takeOuts_bus]
    simp only [busUses, stage]
  | enable stage => rfl
  | awake stage woken => rfl

/-! ### What is lost -/

/-- A step receives nothing and loses nothing, or is one `try_recv`: what that reads is taken or was seen, and what it
reports is counted. -/
inductive Lags (setup : StreamSetup F) (s : Client F) (e : ClientEvent) (t : Client F) : Prop
  | quiet (uses : ∀ u ∈ busUses setup s e, ∀ r, u ≠ .tryRecv r) (taken : t.taken = s.taken)
      (lagDrops : t.lagDrops = s.lagDrops)
  | receives (r : Nat) (uses : busUses setup s e = [.tryRecv r])
      (taken : ∀ tick ∈ t.taken, tick ∈ s.taken ∨ tick ∈ s.hub.bus.reads (.tryRecv r) r)
      (lagDrops : s.hub.bus.reported (.tryRecv r) = 0 ∧ t.lagDrops = s.lagDrops ∨
        t.lagDrops = s.lag (s.hub.bus.reported (.tryRecv r)))

theorem drops_quiet (subscriptions : HashMap Str Nat) (keys : List Str) :
    ∀ u ∈ ((dropped subscriptions keys).map .drop : List (BusUse (SharedTick F))), ∀ r, u ≠ .tryRecv r := by
  intro u member r same
  obtain ⟨r', _, rfl⟩ := List.mem_map.mp member
  cases same

theorem publisher_quiet_uses (i address : Nat) : ∀ u ∈ busUses setup s (.publisher i address), ∀ r, u ≠ .tryRecv r := by
  intro u member r same
  subst same
  unfold busUses at member
  dsimp only at member
  split at member <;> simp at member

theorem reader_quiet_uses : ∀ u ∈ busUses setup s .reader, ∀ r, u ≠ .tryRecv r := by
  intro u member
  unfold busUses at member
  dsimp only at member
  split at member
  · exact drops_quiet _ _ u member
  · exact drops_quiet _ _ u member
  · cases member

theorem drained_lagDrops (config : StreamConfig) (s : Client F) (enabled : Bool) (drain : Drain F) :
    (s.drained config enabled drain).lagDrops = s.lagDrops := by
  unfold drained
  split <;> rfl

/-- What a drain has pending is queued, or waits as it was. -/
theorem taken_drained (config : StreamConfig) (s : Client F) (enabled : Bool) (drain : Drain F) :
    (s.drained config enabled drain).taken = s.queued ++ drain.pending := by
  unfold drained taken
  cases pending : drain.pending with
  | nil =>
    by_cases many : config.maxClientLagDrops ≤ s.lagDrops
    · simp [many, FanoutStage.pending]
    · cases enabled <;> simp [many, FanoutStage.pending]
  | cons tick rest => cases enabled <;> simp [FanoutStage.pending, Drain.new]

theorem taken_congr (queued : t.queued = s.queued) (fanout : t.fanout.pending = s.fanout.pending) :
    t.taken = s.taken := by
  unfold taken
  rw [queued, fanout]

theorem publisher_taken {i : Nat} {p : Publish F} (publishes : Publishes setup s i p t) :
    t.taken = s.taken ∧ t.lagDrops = s.lagDrops := by
  cases publishes <;> exact ⟨rfl, rfl⟩

theorem taken_forget (s : Client F) (key : Str) : (s.takeOut key).taken = s.taken := by
  unfold taken takeOut FanoutStage.forget
  cases s.fanout <;> rfl

theorem reads_taken (reads : Reads s t) : t.taken = s.taken ∧ t.lagDrops = s.lagDrops := by
  cases reads with
  | takeOut stage free => exact ⟨taken_forget s _, rfl⟩
  | _ => exact ⟨rfl, rfl⟩

theorem mem_take {drain : Drain F} {tick other : SharedTick F} (member : other ∈ (Drain.take drain tick).pending) :
    other ∈ drain.pending ∨ other = tick := by
  unfold Drain.take at member
  split at member
  · exact .inl member
  · simpa using member

theorem receives_lags {enabled : Bool} {drain : Drain F} {key : Str} {r : Nat}
    (stage : s.fanout = .draining enabled drain) (current : drain.current = some key)
    (held : s.subscriptions.get key = some r) (receives : Receives setup.config s enabled drain key r t) :
    Lags setup s .receive t := by
  have uses : busUses setup s .receive = [.tryRecv r] := busUses_receive stage current held
  cases receives with
  | @value rc tick rest live unread kept =>
    have found : s.hub.bus.tryRecv r = some (.value tick, s.hub.bus.update r { rc with unread := rest }) := by
      simp [Bus.tryRecv, live, unread, kept]
    refine .receives r uses (fun other member => ?_) (.inl ⟨by simp [Bus.reported, found], rfl⟩)
    rcases List.mem_append.mp member with queued | pending
    · exact .inl (List.mem_append_left _ queued)
    · rcases mem_take pending with before | rfl
      · left
        rw [taken, stage]
        exact List.mem_append_right _ before
      · right
        simp [Bus.reads, found]
  | @lagged rc live missed few =>
    have reported : s.hub.bus.reported (.tryRecv r) = rc.missed := by simp [Bus.reported, Bus.tryRecv, live, missed]
    exact .receives r uses (fun other member => .inl member) (.inr (by rw [reported]))
  | @stopped rc live missed many =>
    have reported : s.hub.bus.reported (.tryRecv r) = rc.missed := by simp [Bus.reported, Bus.tryRecv, live, missed]
    refine .receives r uses (fun other member => .inl ?_) (.inr ?_)
    · rw [taken_drained] at member
      rw [taken, stage]
      exact member
    · rw [drained_lagDrops, reported]
  | @nothing rc live unread kept =>
    have reported : s.hub.bus.reported (.tryRecv r) = 0 := by simp [Bus.reported, Bus.tryRecv, live, unread, kept]
    refine .receives r uses (fun other member => .inl ?_) (.inl ⟨reported, rfl⟩)
    rw [taken, stage]
    exact member

theorem step_lags {e : ClientEvent} (h : step setup s e = some t) : Lags setup s e t := by
  cases step_does h with
  | publish line =>
    refine .quiet (fun _ member => by cases member) (taken_congr ?_ ?_) ?_ <;> unfold publish <;> split <;> rfl
  | publisher address found publishes =>
    obtain ⟨taken, lagDrops⟩ := publisher_taken publishes
    exact .quiet (publisher_quiet_uses _ address) taken lagDrops
  | subscribe key stage =>
    refine .quiet (fun u member r same => ?_) rfl rfl
    rw [List.mem_singleton.mp member] at same
    cases same
  | unsubscribe key stage =>
    refine .quiet (fun _ member => by cases member) (taken_congr ?_ ?_) ?_ <;> unfold unsubscribe <;> split <;> rfl
  | reader reads =>
    obtain ⟨taken, lagDrops⟩ := reads_taken reads
    exact .quiet reader_quiet_uses taken lagDrops
  | look stage =>
    exact .quiet (fun _ member => by cases member) (taken_congr rfl (by rw [stage]; rfl)) rfl
  | sleep stage => exact .quiet (fun _ member => by cases member) rfl rfl
  | visit stage free held fresh =>
    exact .quiet (fun _ member => by cases member) (taken_congr rfl (by rw [stage]; rfl)) rfl
  | receive stage current held receives => exact receives_lags stage current held receives
  | @finish enabled drain stage free visited =>
    obtain ⟨_, _, lagDrops, _, queued, _⟩ := takeOuts_same s drain.closed
    have uses : busUses setup s .finish = (dropped s.subscriptions drain.closed).map .drop := by
      simp only [busUses, stage]
    refine .quiet (uses ▸ drops_quiet _ _) ?_ ?_
    · rw [taken_drained, queued, taken, stage]
      rfl
    · rw [drained_lagDrops, lagDrops]
  | enable stage =>
    exact .quiet (fun _ member => by cases member) (taken_congr rfl (by rw [stage]; rfl)) rfl
  | awake stage woken =>
    exact .quiet (fun _ member => by cases member) (taken_congr rfl (by rw [stage]; rfl)) rfl

/-! ### When a client is dropped -/

/-- A client that waits has lost less than what it may lose, and one that has ended has lost that much. -/
def Patient (config : StreamConfig) (s : Client F) : Prop :=
  match s.fanout with
  | .enabling | .awaiting => s.lagDrops < config.maxClientLagDrops
  | .ended => config.maxClientLagDrops ≤ s.lagDrops
  | _ => True

theorem Patient.frame {config : StreamConfig} (patient : Patient config s) (fanout : t.fanout = s.fanout)
    (lagDrops : t.lagDrops = s.lagDrops) : Patient config t := by
  unfold Patient
  rw [fanout, lagDrops]
  exact patient

theorem patient_draining {config : StreamConfig} {enabled : Bool} {drain : Drain F}
    (draining : t.fanout = .draining enabled drain) : Patient config t := by
  unfold Patient
  rw [draining]
  trivial

theorem patient_checking {config : StreamConfig} (checking : t.fanout = .checking) : Patient config t := by
  unfold Patient
  rw [checking]
  trivial

theorem patient_drained (config : StreamConfig) (s : Client F) (enabled : Bool) (drain : Drain F) :
    Patient config (s.drained config enabled drain) := by
  unfold Patient drained
  cases drain.pending with
  | nil =>
    by_cases many : config.maxClientLagDrops ≤ s.lagDrops
    · simp [many]
    · cases enabled <;> simpa [many] using Nat.lt_of_not_le many
  | cons tick rest => cases enabled <;> simp

theorem Patient.forget {config : StreamConfig} (patient : Patient config s) (key : Str) :
    Patient config (s.takeOut key) := by
  unfold Patient takeOut FanoutStage.forget
  unfold Patient at patient
  cases stage : s.fanout <;> rw [stage] at patient <;> exact patient

theorem Patient.step {e : ClientEvent} (patient : Patient setup.config s) (h : step setup s e = some t) :
    Patient setup.config t := by
  cases step_does h with
  | publish line =>
    refine patient.frame ?_ ?_ <;> unfold publish <;> split <;> rfl
  | publisher address found publishes =>
    have same : t.fanout = s.fanout := by cases publishes <;> rfl
    exact patient.frame same (publisher_taken publishes).2
  | subscribe key stage => exact patient.frame rfl rfl
  | unsubscribe key stage =>
    refine patient.frame ?_ ?_ <;> unfold unsubscribe <;> split <;> rfl
  | reader reads =>
    cases reads with
    | takeOut stage free => exact (patient.forget _).frame rfl rfl
    | _ => exact patient.frame rfl rfl
  | look stage => exact patient_draining rfl
  | sleep stage => exact patient
  | visit stage free held fresh => exact patient_draining rfl
  | receive stage current held receives =>
    cases receives with
    | value live unread kept => exact patient_draining rfl
    | lagged live missed few => exact patient_draining stage
    | stopped live missed many => exact patient_drained ..
    | nothing live unread kept => exact patient_draining rfl
  | finish stage free visited => exact patient_drained ..
  | enable stage => exact patient_draining rfl
  | awake stage woken => exact patient_checking rfl

end Client

/-! ### A client with its ledger -/

structure Metered (F : Type) where
  client : Client F := .start
  ledger : Ledger (SharedTick F) := {}

namespace Metered

variable {F : Type} {setup : StreamSetup F} {s t : Metered F}

def step (setup : StreamSetup F) (s : Metered F) (e : ClientEvent) : Option (Metered F) :=
  (Client.step setup s.client e).map fun client => ⟨client, s.ledger.records (s.client.busUses setup e)⟩

structure Kept (setup : StreamSetup F) (s : Metered F) : Prop where
  bus : s.ledger.bus = s.client.hub.bus
  balanced : s.ledger.Balanced
  read : ∀ tick ∈ s.client.taken, ∃ r, tick ∈ s.ledger.taken r
  few : s.client.lagDrops ≤ s.ledger.lost
  counted : s.ledger.lost < 2 ^ 32 → s.client.lagDrops = s.ledger.lost
  patient : s.client.Patient setup.config

theorem kept_start : Kept setup ({} : Metered F) :=
  ⟨rfl, Ledger.balanced_new, fun _ member => (by cases member), Nat.le_refl 0, fun _ => rfl, trivial⟩

theorem Kept.step {e : ClientEvent} (kept : Kept setup s) (h : s.step setup e = some t) : Kept setup t := by
  obtain ⟨client, stepped, rfl⟩ := Option.map_eq_some_iff.mp h
  have bus : (s.ledger.records (s.client.busUses setup e)).bus = client.hub.bus := by
    rw [Ledger.records_bus, kept.bus, Client.step_bus stepped]
  have balanced : (s.ledger.records (s.client.busUses setup e)).Balanced := kept.balanced.records
  have patient := kept.patient.step stepped
  cases Client.step_lags stepped with
  | quiet uses taken lagDrops =>
    have lost := Ledger.records_lost kept.balanced uses
    refine ⟨bus, balanced, fun tick member => ?_, ?_, fun small => ?_, patient⟩
    · rw [taken] at member
      obtain ⟨r, was⟩ := kept.read tick member
      exact ⟨r, Ledger.mem_taken_records was _⟩
    · rw [lost]
      exact lagDrops ▸ kept.few
    · rw [lost] at small ⊢
      exact lagDrops.trans (kept.counted small)
  | receives r uses taken lagDrops =>
    have one : s.ledger.records (s.client.busUses setup e) = s.ledger.record (.tryRecv r) := by rw [uses]; rfl
    have lost : (s.ledger.records (s.client.busUses setup e)).lost =
        s.ledger.lost + s.client.hub.bus.reported (.tryRecv r) := by
      rw [one, Ledger.record_lost kept.balanced, kept.bus]
    have few := kept.few
    refine ⟨bus, balanced, fun tick member => ?_, ?_, fun small => ?_, patient⟩
    · rcases taken tick member with was | now
      · obtain ⟨r', was⟩ := kept.read tick was
        exact ⟨r', Ledger.mem_taken_records was _⟩
      · refine ⟨r, ?_⟩
        rw [one, Ledger.record_taken, kept.bus]
        exact List.mem_append_right _ now
    · rw [lost]
      rcases lagDrops with ⟨nothing, same⟩ | lags
      · dsimp only
        omega
      · dsimp only
        rw [lags, Client.lag]
        have less := Nat.mod_le (s.client.hub.bus.reported (.tryRecv r)) (2 ^ 32)
        omega
    · rw [lost] at small ⊢
      have counted := kept.counted (by omega)
      rcases lagDrops with ⟨nothing, same⟩ | lags
      · dsimp only
        omega
      · dsimp only
        rw [lags, Client.lag, Nat.mod_eq_of_lt (by omega)]
        omega

/-- What a receiver was sent, it has read in order, was told that it missed, will be told, or has yet to read. The
client has been told of its losses so far, ends only when they reach the bound, and waits only while they are below. -/
theorem lag_accounted {events : List ClientEvent} (reached : Machine.run (step setup) {} events = some s) :
    (∀ r rc, s.client.hub.bus.receiver r = some rc → ∃ past, s.ledger.sent r = past ++ rc.unread ∧
      (s.ledger.taken r).Sublist past ∧ past.length = (s.ledger.taken r).length + s.ledger.counted r + rc.missed) ∧
    (∀ r, (s.ledger.taken r).Sublist (s.ledger.sent r) ∧
      (s.ledger.taken r).length + s.ledger.counted r ≤ (s.ledger.sent r).length) ∧
    (∀ tick ∈ s.client.taken, ∃ r, tick ∈ s.ledger.taken r) ∧
    s.client.lagDrops ≤ ∑ r ∈ Finset.range s.client.hub.bus.next, s.ledger.counted r ∧
    (∑ r ∈ Finset.range s.client.hub.bus.next, s.ledger.counted r < 2 ^ 32 →
      s.client.lagDrops = ∑ r ∈ Finset.range s.client.hub.bus.next, s.ledger.counted r) ∧
    (s.client.fanout = .awaiting → s.client.lagDrops < setup.config.maxClientLagDrops) ∧
    (s.client.fanout = .ended → setup.config.maxClientLagDrops ≤ s.client.lagDrops) := by
  have kept : Kept setup s := Machine.invariant_run (fun _ _ _ kept h => Kept.step kept h) kept_start reached
  obtain ⟨bus, balanced, read, few, counted, patient⟩ := kept
  rw [Ledger.lost, bus] at few counted
  refine ⟨fun r rc live => ?_, balanced.all, read, few, counted, fun waits => ?_, fun ended => ?_⟩
  · obtain ⟨past, sent, taken, length⟩ := balanced.live r rc (by rw [bus, live])
    exact ⟨past, sent, taken, length⟩
  · rw [Client.Patient, waits] at patient
    exact patient
  · rw [Client.Patient, ended] at patient
    exact patient

/-- Channels that keep one tick, and clients that may lose one. -/
def narrowSetup : StreamSetup Empty :=
  { tradesSetup with config := ⟨1, 1000, ["symbol".toList], "*".toList, 2⟩ }

/-- Three ticks are published before the client reads. -/
def threeTicks : List ClientEvent :=
  [.subscribe "A".toList, .reader, .publish trade, .publisher 0 7, .publisher 0 7, .publisher 0 7, .publisher 0 7,
    .publish trade, .publisher 1 8, .publisher 1 8, .publisher 1 8, .publisher 1 8, .publish trade, .publisher 2 9,
    .publisher 2 9, .publisher 2 9, .publisher 2 9, .look, .visit "A".toList, .receive]

theorem lag_accounted_dropped : ∃ s, Machine.run (step narrowSetup) {} threeTicks = some s ∧
    s.client.fanout = .ended ∧ 2 ≤ s.client.lagDrops ∧ (s.ledger.taken 0).length + s.ledger.counted 0 ≤ 3 := by
  obtain ⟨s, reached, ended, sent⟩ : ∃ s, Machine.run (step narrowSetup) {} threeTicks = some s ∧
      s.client.fanout = .ended ∧ (s.ledger.sent 0).length = 3 := ⟨_, rfl, rfl, by decide +kernel⟩
  obtain ⟨_, all, _, _, _, _, drops⟩ := lag_accounted reached
  exact ⟨s, reached, ended, drops ended, sent ▸ (all 0).2⟩

end Metered
end QuestRouter.Stream
