import QuestRouter.Stream.Attendance

/-!
# What is read for a client

A tick goes to up to two receivers of a client, and each drain takes an address once. So every tick is taken once
and in order if both copies of a tick are read in one drain and no other tick has its address by then, if a
receiver is replaced only when its ticks are elsewhere, and if no receiver is read ahead of another one of the
same topic.
-/

namespace QuestRouter.Stream
open Text Data Data.Broadcast

namespace Client

variable {F : Type} {setup : StreamSetup F} {s t : Client F}

/-- The ticks that were read for the client, queued or about to be. -/
def taken (s : Client F) : List (SharedTick F) := s.queued ++ s.fanout.pending

def numbers (s : Client F) : List Nat := s.taken.map fun tick => tick.number

theorem numbers_of_taken (taken : t.taken = s.taken) : t.numbers = s.numbers := by
  unfold numbers
  rw [taken]

def unread (s : Client F) (r : Nat) : List (SharedTick F) := s.hub.bus.unread r

/-- The receivers of the map, and the one that is about to be inserted. -/
def receivers (s : Client F) : List Nat :=
  s.subscriptions.entries.map (fun e => e.2) ++
    match s.reader with
    | .holding _ r => [r]
    | _ => []

/-- What is unread in this receiver was read elsewhere, or waits in another one. -/
def Covered (s : Client F) (old : Nat) : Prop :=
  ∀ tick ∈ s.unread old, tick.number ∈ s.numbers ∨
    ∃ r ∈ s.receivers, r ≠ old ∧ tick.number ∈ (s.unread r).map fun tick => tick.number

/-- A tick with this address was seen in this drain if and only if it is the tick that was read before. -/
def Recognised (s : Client F) (drain : Drain F) (tick : SharedTick F) : Prop :=
  tick.address ∈ drain.seen ↔ tick.number ∈ s.numbers

/-- What waits in this receiver, of the same topic and from a publish that had returned before, was read. -/
def NoneEarlier (s : Client F) (r : Nat) (tick : SharedTick F) : Prop :=
  ∀ other ∈ s.unread r, other.topic = tick.topic → other.number ∈ tick.earlier → other.number ∈ s.numbers

/-- The tick was read before, or nothing waits in another receiver that should be read first. -/
def FirstInLine (s : Client F) (r : Nat) (tick : SharedTick F) : Prop :=
  tick.number ∉ s.numbers → ∀ r' ∈ s.receivers, r' ≠ r → s.NoneEarlier r' tick

/-- The receiver that the reader is about to replace. -/
def ReplacesRead (s : Client F) : ReaderStage → Prop
  | .holding key _ => ∀ old ∈ s.subscriptions.get key, s.Covered old
  | _ => True

/-- The tick that the drain is about to read. -/
def ReadsOnce (s : Client F) : FanoutStage F → Prop
  | .draining _ drain => ∀ key ∈ drain.current, ∀ r ∈ s.subscriptions.get key, ∀ tick ∈ (s.unread r).head?,
      s.Recognised drain tick ∧ s.FirstInLine r tick
  | _ => True

def Undisturbed (setup : StreamSetup F) (s : Client F) (e : ClientEvent) : Prop :=
  Stays setup s e ∧
    match e with
    | .reader => s.ReplacesRead s.reader
    | .receive => s.ReadsOnce s.fanout
    | _ => True

instance (s : Client F) (old : Nat) : Decidable (s.Covered old) :=
  inferInstanceAs (Decidable (∀ tick ∈ s.unread old, tick.number ∈ s.numbers ∨
    ∃ r ∈ s.receivers, r ≠ old ∧ tick.number ∈ (s.unread r).map fun tick => tick.number))

instance (s : Client F) (drain : Drain F) (tick : SharedTick F) : Decidable (s.Recognised drain tick) :=
  inferInstanceAs (Decidable (tick.address ∈ drain.seen ↔ tick.number ∈ s.numbers))

instance (s : Client F) (r : Nat) (tick : SharedTick F) : Decidable (s.NoneEarlier r tick) :=
  inferInstanceAs (Decidable (∀ other ∈ s.unread r,
    other.topic = tick.topic → other.number ∈ tick.earlier → other.number ∈ s.numbers))

instance (s : Client F) (r : Nat) (tick : SharedTick F) : Decidable (s.FirstInLine r tick) :=
  inferInstanceAs (Decidable (tick.number ∉ s.numbers → ∀ r' ∈ s.receivers, r' ≠ r → s.NoneEarlier r' tick))

instance ReplacesRead.decidable (s : Client F) : ∀ stage, Decidable (s.ReplacesRead stage)
  | .holding key _ => inferInstanceAs (Decidable (∀ old ∈ s.subscriptions.get key, s.Covered old))
  | .idle | .leaving _ | .counting _ | .removing _ | .notifies => .isTrue trivial

instance ReadsOnce.decidable (s : Client F) : ∀ stage, Decidable (s.ReadsOnce stage)
  | .draining _ drain =>
    inferInstanceAs (Decidable (∀ key ∈ drain.current, ∀ r ∈ s.subscriptions.get key, ∀ tick ∈ (s.unread r).head?,
      s.Recognised drain tick ∧ s.FirstInLine r tick))
  | .checking | .enabling | .awaiting | .ended => .isTrue trivial

instance Undisturbed.decidable (setup : StreamSetup F) (s : Client F) : ∀ e, Decidable (Undisturbed setup s e)
  | .reader => inferInstanceAs (Decidable (Stays setup s .reader ∧ s.ReplacesRead s.reader))
  | .receive => inferInstanceAs (Decidable (Stays setup s .receive ∧ s.ReadsOnce s.fanout))
  | .publish line => inferInstanceAs (Decidable (Stays setup s (.publish line) ∧ True))
  | .publisher i address => inferInstanceAs (Decidable (Stays setup s (.publisher i address) ∧ True))
  | .subscribe key => inferInstanceAs (Decidable (Stays setup s (.subscribe key) ∧ True))
  | .unsubscribe key => inferInstanceAs (Decidable (Stays setup s (.unsubscribe key) ∧ True))
  | .look | .visit _ | .finish | .enable | .awake => .isTrue ⟨trivial, trivial⟩

theorem mem_receivers {r : Nat} : r ∈ s.receivers ↔ ∃ key, Owns s key r := by
  unfold receivers Owns
  rw [List.mem_append, exists_or]
  refine or_congr ?_ ?_
  · rw [List.mem_map]
    constructor
    · rintro ⟨e, member, rfl⟩
      exact ⟨e.1, AList.mem_lookup_iff.mpr member⟩
    · rintro ⟨key, found⟩
      exact ⟨⟨key, r⟩, AList.mem_lookup_iff.mp found, rfl⟩
  · cases s.reader with
    | holding key held => simp [eq_comm]
    | _ => simp

/-! ### What moves -/

/-- A step moves no tick, sends one, reads one, or drops what is unread in a receiver. -/
inductive Moves (s t : Client F) : Prop
  | quiet (taken : t.taken = s.taken) (unread : ∀ r, t.unread r = s.unread r)
      (owns : ∀ key r, Owns t key r → Owns s key r ∨ s.unread r = [])
      (keeps : ∀ key r, Owns s key r → Owns t key r)
  | sent {i : Nat} {p : Publish F} (tick : SharedTick F) (found : s.publishes[i]? = some p)
      (refers : p.stage.tick = some tick) (taken : t.taken = s.taken)
      (unread : ∀ r, t.unread r = s.unread r ∨ t.unread r = s.unread r ++ [tick])
      (owns : ∀ key r, Owns t key r ↔ Owns s key r)
  | read {key : Str} {r : Nat} {tick : SharedTick F} {rest : List (SharedTick F)} (held : Owns s key r)
      (waits : s.unread r = tick :: rest) (unread : ∀ r', t.unread r' = if r' = r then rest else s.unread r')
      (taken : t.taken = if tick.number ∈ s.numbers then s.taken else s.taken ++ [tick])
      (first : s.FirstInLine r tick) (owns : ∀ key r, Owns t key r ↔ Owns s key r)
  | replaced {old : Nat} (taken : t.taken = s.taken)
      (unread : ∀ r, t.unread r = if r = old then [] else s.unread r) (covered : s.Covered old)
      (owns : ∀ key r, Owns t key r ↔ Owns s key r ∧ r ≠ old)
      (keeps : ∀ key, (∃ r, Owns s key r) → ∃ r, Owns t key r)

/-- Neither the receivers nor what was read changes. -/
theorem moves_aside (queued : t.queued = s.queued) (fanout : t.fanout.pending = s.fanout.pending)
    (bus : t.hub.bus = s.hub.bus) (subscriptions : t.subscriptions = s.subscriptions)
    (reader : t.reader = s.reader) : Moves s t := by
  refine .quiet ?_ (fun r => ?_) (fun key r has => .inl ((owns_congr subscriptions reader).mp has))
    fun key r has => (owns_congr subscriptions reader).mpr has
  · rw [taken, queued, fanout]
    rfl
  · unfold unread
    rw [bus]

theorem unread_send {b : Bus (SharedTick F)} {capacity channel : Nat} {tick : SharedTick F} {r : Nat}
    (room : ∀ rc, b.receiver r = some rc → rc.channel = channel → rc.unread.length < capacity) :
    (b.send capacity channel tick).unread r = b.unread r ∨
      (b.send capacity channel tick).unread r = b.unread r ++ [tick] := by
  unfold Bus.unread
  rw [Bus.send_receiver]
  cases live : b.receiver r with
  | none => exact .inl rfl
  | some rc =>
    by_cases on : rc.channel = channel
    · right
      simp [on, Bus.deliver_of_room (room rc live on)]
    · left
      simp [on]

theorem publisher_moves {i : Nat} {p : Publish F} {address : Nat} (found : s.publishes[i]? = some p)
    (stays : Stays setup s (.publisher i address)) (does : Publishes setup s i p t) : Moves s t := by
  have room := stays p found
  cases does with
  | load stage => exact moves_aside rfl rfl rfl rfl rfl
  | turnBack stage nobody => exact moves_aside rfl rfl rfl rfl rfl
  | allocate stage encoded free somebody => exact moves_aside rfl rfl rfl rfl rfl
  | @sendTopic tick wildcard stage =>
    rw [stage] at room
    refine .sent tick found (by rw [stage]; rfl) rfl (fun r => ?_) fun _ _ => Iff.rfl
    have bus := BroadcastHub.sendToTopic_bus setup.config s.hub tick.topic tick.row tick
    dsimp only [unread] at room ⊢
    rw [bus]
    exact unread_send fun rc live on => room r (Bus.lt_next live) rc live on
  | notifyTopic stage => exact moves_aside rfl rfl rfl rfl rfl
  | @sendWildcard tick stage =>
    rw [stage] at room
    refine .sent tick found (by rw [stage]; rfl) rfl (fun r => ?_) fun _ _ => Iff.rfl
    exact unread_send fun rc live on => room r (Bus.lt_next live) rc live on
  | notifyWildcard stage => exact moves_aside rfl rfl rfl rfl rfl

theorem drained_taken (config : StreamConfig) (enabled : Bool) (drain : Drain F)
    (stage : s.fanout = .draining enabled drain) : (s.drained config enabled drain).taken = s.taken := by
  unfold drained taken
  rw [stage]
  cases pending : drain.pending with
  | nil =>
    by_cases many : config.maxClientLagDrops ≤ s.lagDrops
    · simp [many, FanoutStage.pending, pending]
    · cases enabled <;> simp [many, FanoutStage.pending, pending]
  | cons tick rest => cases enabled <;> simp [FanoutStage.pending, pending, Drain.new]

theorem drained_moves (config : StreamConfig) (enabled : Bool) (drain : Drain F)
    (stage : s.fanout = .draining enabled drain) : Moves s (s.drained config enabled drain) := by
  have rest : (s.drained config enabled drain).hub = s.hub ∧
      (s.drained config enabled drain).subscriptions = s.subscriptions ∧
        (s.drained config enabled drain).reader = s.reader := by
    unfold drained
    split <;> exact ⟨rfl, rfl, rfl⟩
  refine .quiet (drained_taken config enabled drain stage) (fun r => ?_)
    (fun key r has => .inl ((owns_congr rest.2.1 rest.2.2).mp has)) fun key r has =>
      (owns_congr rest.2.1 rest.2.2).mpr has
  unfold unread
  rw [rest.1]

theorem subscribe_moves (idle : s.reader = .idle) (key : Str) : Moves s (s.subscribe key) := by
  have new : s.unread (s.hub.subscribeTopic key).1 = [] := by
    unfold unread Bus.unread
    rw [subscribeTopic_fst, s.hub.bus.bounded _ (Nat.le_refl _)]
    rfl
  refine .quiet rfl (fun r => subscribeTopic_unread s.hub key r) ?_ ?_
  · rintro other r (found | holds)
    · exact .inl (.inl found)
    · cases holds
      exact .inr new
  · rintro other r (found | holds)
    · exact .inl found
    · rw [idle] at holds
      cases holds

theorem insert_moves {key : Str} {r : Nat} (attends : Attends s) (stage : s.reader = .holding key r)
    (covered : ∀ old ∈ s.subscriptions.get key, s.Covered old) : Moves s (s.insert key r) := by
  have owns := @insert_owns F s attends.owned key r stage
  have dropped : ∀ r', (s.insert key r).unread r' =
      if s.subscriptions.get key = some r' then [] else s.unread r' :=
    fun r' => dropHeld_unread s.hub (s.subscriptions.get key) r'
  cases known : s.subscriptions.get key with
  | none =>
    rw [known] at owns dropped
    exact .quiet rfl dropped (fun other r' has => .inl (owns.mp has).1) fun other r' has => owns.mpr ⟨has, nofun⟩
  | some old =>
    rw [known] at owns dropped covered
    refine .replaced rfl (fun r' => ?_) (covered old rfl) (fun other r' => ?_) fun other ⟨r', has⟩ => ?_
    · rw [dropped r']
      simp only [Option.some.injEq, eq_comm]
    · rw [owns]
      simp only [ne_eq, Option.some.injEq, eq_comm]
    · by_cases same : r' = old
      · subst same
        obtain ⟨_, rfl⟩ := attends.owned.apart_owns has known
        exact ⟨r, .inl (HashMap.get_insert _ _ _)⟩
      · exact ⟨r', owns.mpr ⟨has, fun again => same (Option.some.inj again).symm⟩⟩

theorem receive_moves {enabled : Bool} {drain : Drain F} {key : Str} {r : Nat} (attends : Attends s)
    (stage : s.fanout = .draining enabled drain) (held : s.subscriptions.get key = some r)
    (receives : Receives setup.config s enabled drain key r t)
    (reads : ∀ tick ∈ (s.unread r).head?, s.Recognised drain tick ∧ s.FirstInLine r tick) : Moves s t := by
  obtain ⟨rc, live, kept, ⟨tick, rest, waits, rfl⟩ | ⟨waits, rfl⟩⟩ := attends.receives held receives
  · have front : s.unread r = tick :: rest := (Bus.unread_of_live live).trans waits
    obtain ⟨recognised, first⟩ := reads tick (by rw [front]; rfl)
    refine .read (.inl held) front (fun r' => Bus.unread_update live _ r') ?_ first fun _ _ => Iff.rfl
    unfold Recognised at recognised
    unfold taken Drain.take
    rw [stage]
    by_cases before : tick.number ∈ s.numbers
    · rw [if_pos before, if_pos (recognised.mpr before)]
    · rw [if_neg before, if_neg (fun seen => before (recognised.mp seen))]
      exact (List.append_assoc _ _ _).symm
  · exact moves_aside rfl (by rw [stage]; rfl) rfl rfl rfl

theorem step_moves {e : ClientEvent} (attends : Attends s) (undisturbed : Undisturbed setup s e)
    (h : step setup s e = some t) : Moves s t := by
  obtain ⟨stays, reads⟩ := undisturbed
  cases step_does h with
  | publish line =>
    unfold Client.publish
    split <;> exact moves_aside rfl rfl rfl rfl rfl
  | publisher address found publishes => exact publisher_moves found stays publishes
  | subscribe key stage => exact subscribe_moves stage key
  | unsubscribe key stage => exact stays.elim
  | reader access =>
    obtain ⟨key, r, holds, rfl⟩ := reads_insert attends access
    rw [holds] at reads
    exact insert_moves attends holds reads
  | look stage => exact moves_aside rfl (by rw [stage]; rfl) rfl rfl rfl
  | sleep stage => exact moves_aside rfl rfl rfl rfl rfl
  | visit stage free held fresh => exact moves_aside rfl (by rw [stage]; rfl) rfl rfl rfl
  | @receive enabled drain key r t stage current held receives =>
    rw [stage] at reads
    exact receive_moves attends stage held receives (reads key current r held)
  | @finish enabled drain stage free visited =>
    rw [attends.isOpen enabled drain stage]
    exact drained_moves _ _ _ stage
  | enable stage => exact moves_aside rfl (by rw [stage]; rfl) rfl rfl rfl
  | awake stage woken => exact moves_aside rfl (by rw [stage]; rfl) rfl rfl rfl

/-! ### Publishes -/

def Returned (s : Client F) (n : Nat) : Prop := ∃ p, s.publishes[n]? = some p ∧ p.stage.isReturned = true

/-- A publish goes on to another stage; no other one changes. -/
theorem publisher_sets {i : Nat} {p : Publish F} (does : Publishes setup s i p t) :
    p.stage.isReturned = false ∧ ∃ stage, t.publishes = s.publishes.set i { p with stage } ∧
      ∀ tick, stage.tick = some tick →
        p.stage.tick = some tick ∨ tick.number = i ∧ tick.topic = p.topic ∧ tick.earlier = p.earlier := by
  cases does with
  | load stage => exact ⟨by rw [stage]; rfl, _, rfl, nofun⟩
  | turnBack stage nobody => exact ⟨by rw [stage]; rfl, _, rfl, nofun⟩
  | allocate stage encoded free somebody =>
    refine ⟨by rw [stage]; rfl, _, rfl, fun tick refers => .inr ?_⟩
    split at refers <;> cases refers <;> exact ⟨rfl, rfl, rfl⟩
  | sendTopic stage => exact ⟨by rw [stage]; rfl, _, rfl, fun tick refers => .inl (by rw [stage]; exact refers)⟩
  | @notifyTopic before wildcard stage =>
    refine ⟨by rw [stage]; rfl, _, rfl, fun tick refers => .inl ?_⟩
    rw [stage]
    split at refers
    · exact refers
    · cases refers
  | sendWildcard stage => exact ⟨by rw [stage]; rfl, _, rfl, nofun⟩
  | notifyWildcard stage => exact ⟨by rw [stage]; rfl, _, rfl, nofun⟩

theorem drained_publishes (config : StreamConfig) (s : Client F) (enabled : Bool) (drain : Drain F) :
    (s.drained config enabled drain).publishes = s.publishes := by
  unfold drained
  split <;> rfl

/-- A step begins a publish, or takes one further, or leaves them all. -/
inductive Turns (setup : StreamSetup F) (s t : Client F) : Prop
  | same (publishes : t.publishes = s.publishes)
  | began (topic : Str) (row : IlpRow F) (publishes : t.publishes = s.publishes ++ [s.begin setup topic row])
  | went {i : Nat} {p : Publish F} (found : s.publishes[i]? = some p) (does : Publishes setup s i p t)

theorem step_turns {e : ClientEvent} (h : step setup s e = some t) : Turns setup s t := by
  cases step_does h with
  | publish line =>
    unfold Client.publish
    split
    · exact .same rfl
    · exact .began _ _ rfl
  | publisher address found publishes => exact .went found publishes
  | subscribe key stage => exact .same rfl
  | unsubscribe key stage =>
    unfold Client.unsubscribe
    split <;> exact .same rfl
  | reader reads => cases reads <;> exact .same rfl
  | receive stage current held receives =>
    cases receives with
    | stopped live missed many => exact .same (drained_publishes ..)
    | _ => exact .same rfl
  | finish stage free visited => exact .same ((drained_publishes ..).trans (takeOuts_same s _).1)
  | _ => exact .same rfl

/-- What a publish was before the step: the same, not begun, or at another stage. -/
theorem Turns.before (turns : Turns setup s t) {j : Nat} {q : Publish F} (there : t.publishes[j]? = some q) :
    s.publishes[j]? = some q ∨ (∃ topic row, q = s.begin setup topic row) ∨
      ∃ p stage, s.publishes[j]? = some p ∧ Publishes setup s j p t ∧ q = { p with stage } ∧
        ∀ tick, stage.tick = some tick →
          p.stage.tick = some tick ∨ tick.number = j ∧ tick.topic = p.topic ∧ tick.earlier = p.earlier := by
  cases turns with
  | same publishes =>
    rw [publishes] at there
    exact .inl there
  | began topic row publishes =>
    rw [publishes, List.getElem?_append] at there
    split at there
    · exact .inl there
    · exact .inr (.inl ⟨topic, row, List.mem_singleton.mp (List.mem_of_getElem? there)⟩)
  | @went i p found does =>
    obtain ⟨_, stage, publishes, refers⟩ := publisher_sets does
    rw [publishes, Machine.getElem?_replaced found] at there
    split at there
    · rename_i same
      subst same
      cases there
      exact .inr (.inr ⟨p, stage, found, does, rfl, refers⟩)
    · exact .inl there

theorem returned_of_turns (turns : Turns setup s t) {n : Nat} (returned : Returned s n) : Returned t n := by
  obtain ⟨q, there, finished⟩ := returned
  cases turns with
  | same publishes => exact ⟨q, by rw [publishes, there], finished⟩
  | began topic row publishes =>
    refine ⟨q, ?_, finished⟩
    rw [publishes, List.getElem?_append_left (List.getElem?_eq_some_iff.mp there).1, there]
  | @went i p found does =>
    obtain ⟨before, stage, publishes, _⟩ := publisher_sets does
    have other : n ≠ i := by
      rintro rfl
      rw [found] at there
      cases there
      rw [before] at finished
      cases finished
    exact ⟨q, by rw [publishes, Machine.getElem?_replaced found, if_neg other, there], finished⟩

/-- Ticks carry the number of their publish, and what had returned before it began. -/
structure Numbered (s : Client F) : Prop where
  tick : ∀ (i : Nat) (p : Publish F) (tick : SharedTick F), s.publishes[i]? = some p → p.stage.tick = some tick →
    tick.number = i ∧ tick.topic = p.topic ∧ tick.earlier = p.earlier
  earlier : ∀ (i : Nat) (p : Publish F), s.publishes[i]? = some p → ∀ n ∈ p.earlier, Returned s n

theorem begin_earlier {topic : Str} {row : IlpRow F} {n : Nat} (before : n ∈ (s.begin setup topic row).earlier) :
    Returned s n := by
  have returned := (List.mem_filter.mp before).2
  exact (Option.any_eq_true _ _).mp returned

theorem numbered_of_turns (numbered : Numbered s) (turns : Turns setup s t) : Numbered t := by
  refine ⟨fun j q tick there refers => ?_, fun j q there n earlier => returned_of_turns turns ?_⟩
  · rcases turns.before there with was | ⟨topic, row, rfl⟩ | ⟨p, stage, found, _, rfl, carries⟩
    · exact numbered.tick j q tick was refers
    · unfold begin at refers
      dsimp only at refers
      split at refers <;> cases refers
    · rcases carries tick refers with old | new
      · exact numbered.tick j p tick found old
      · exact new
  · rcases turns.before there with was | ⟨topic, row, rfl⟩ | ⟨p, stage, found, _, rfl, _⟩
    · exact numbered.earlier j q was n earlier
    · exact begin_earlier earlier
    · exact numbered.earlier j p found n earlier

/-! ### Order -/

/-- No tick comes after one whose publish began when its own had returned. -/
structure InOrder (s : Client F) : Prop where
  takenBefore : ∀ tick ∈ s.taken, ∀ n ∈ tick.earlier, Returned s n
  unreadBefore : ∀ r, ∀ tick ∈ s.unread r, ∀ n ∈ tick.earlier, Returned s n
  once : s.numbers.Nodup
  taken : s.taken.Pairwise fun x y => y.topic = x.topic → y.number ∉ x.earlier
  unread : ∀ r, (s.unread r).Pairwise fun x y => y.number ∉ x.earlier
  behind : ∀ x ∈ s.taken, ∀ key r, Owns s key r → ∀ y ∈ s.unread r, y.topic = x.topic → y.number ∈ x.earlier →
    y.number ∈ s.numbers

theorem inOrder_start : InOrder (start : Client F) where
  takenBefore := nofun
  unreadBefore := nofun
  once := List.nodup_nil
  taken := List.Pairwise.nil
  unread _ := List.Pairwise.nil
  behind := nofun

/-- Nothing is read, and what is unread only gets less. -/
theorem InOrder.less (order : InOrder s) (stays : ∀ {n}, Returned s n → Returned t n) (taken : t.taken = s.taken)
    (unread : ∀ r, (t.unread r).Sublist (s.unread r))
    (owns : ∀ key r, Owns t key r → Owns s key r ∨ s.unread r = []) : InOrder t := by
  have numbers := numbers_of_taken taken
  refine ⟨fun x member n before => ?_, fun r x waits n before => ?_, ?_, ?_, fun r => ?_,
    fun x member key r has y waits => ?_⟩
  · exact stays (order.takenBefore x (taken ▸ member) n before)
  · exact stays (order.unreadBefore r x ((unread r).subset waits) n before)
  · rw [numbers]
    exact order.once
  · rw [taken]
    exact order.taken
  · exact (order.unread r).sublist (unread r)
  · have waited := (unread r).subset waits
    rw [numbers]
    rcases owns key r has with had | empty
    · exact order.behind x (taken ▸ member) key r had y waited
    · rw [empty] at waited
      cases waited

/-- A tick under way is behind every tick that is unread, and no earlier than one that was read. -/
theorem InOrder.sent (order : InOrder s) (stays : ∀ {n}, Returned s n → Returned t n) {tick : SharedTick F}
    (underWay : ¬ Returned s tick.number) (earlier : ∀ n ∈ tick.earlier, Returned s n) (taken : t.taken = s.taken)
    (unread : ∀ r, t.unread r = s.unread r ∨ t.unread r = s.unread r ++ [tick])
    (owns : ∀ key r, Owns t key r ↔ Owns s key r) : InOrder t := by
  have numbers := numbers_of_taken taken
  have either : ∀ {r x}, x ∈ t.unread r → x ∈ s.unread r ∨ x = tick := by
    intro r x waits
    rcases unread r with same | more
    · rw [same] at waits
      exact .inl waits
    · rw [more] at waits
      exact (List.mem_append.mp waits).imp_right List.mem_singleton.mp
  refine ⟨fun x member n before => ?_, fun r x waits n before => stays ?_, ?_, ?_, fun r => ?_,
    fun x member key r has y waits topic before => ?_⟩
  · exact stays (order.takenBefore x (taken ▸ member) n before)
  · rcases either waits with old | rfl
    · exact order.unreadBefore r x old n before
    · exact earlier n before
  · rw [numbers]
    exact order.once
  · rw [taken]
    exact order.taken
  · rcases unread r with same | more
    · rw [same]
      exact order.unread r
    · rw [more, List.pairwise_append]
      refine ⟨order.unread r, List.pairwise_singleton _ _, fun x waits y new before => ?_⟩
      rw [List.mem_singleton.mp new] at before
      exact underWay (order.unreadBefore r x waits _ before)
  · rw [taken] at member
    rw [numbers]
    rcases either waits with old | rfl
    · exact order.behind x member key r ((owns key r).mp has) y old topic before
    · exact (underWay (order.takenBefore x member _ before)).elim

/-- The front of a receiver is read for the first time; nothing that waits elsewhere should have been read first. -/
theorem InOrder.takes (order : InOrder s) (stays : ∀ {n}, Returned s n → Returned t n) {key : Str} {r : Nat}
    {tick : SharedTick F} {rest : List (SharedTick F)} (held : Owns s key r) (waits : s.unread r = tick :: rest)
    (fresh : tick.number ∉ s.numbers) (taken : t.taken = s.taken ++ [tick])
    (unread : ∀ r', t.unread r' = if r' = r then rest else s.unread r') (first : s.FirstInLine r tick)
    (owns : ∀ key r, Owns t key r ↔ Owns s key r) : InOrder t := by
  have numbers : t.numbers = s.numbers ++ [tick.number] := by
    unfold numbers
    rw [taken, List.map_append]
    rfl
  have front : tick ∈ s.unread r := by
    rw [waits]
    exact List.mem_cons_self
  have inLine := order.unread r
  rw [waits, List.pairwise_cons] at inLine
  have fewer : ∀ {r' x}, x ∈ t.unread r' → x ∈ s.unread r' := by
    intro r' x later
    rw [unread r'] at later
    split at later
    · rename_i same
      rw [same, waits]
      exact List.mem_cons_of_mem _ later
    · exact later
  refine ⟨fun x member n before => stays ?_, fun r' x later n before => ?_, ?_, ?_, fun r' => ?_,
    fun x member key' r' has y later topic before => ?_⟩
  · rw [taken] at member
    rcases List.mem_append.mp member with old | new
    · exact order.takenBefore x old n before
    · rw [List.mem_singleton.mp new] at before
      exact order.unreadBefore r tick front n before
  · exact stays (order.unreadBefore r' x (fewer later) n before)
  · rw [numbers, List.nodup_append]
    refine ⟨order.once, List.nodup_singleton _, fun n old m new => ?_⟩
    rw [List.mem_singleton.mp new]
    rintro rfl
    exact fresh old
  · rw [taken, List.pairwise_append]
    refine ⟨order.taken, List.pairwise_singleton _ _, fun x member y new topic before => ?_⟩
    rw [List.mem_singleton.mp new] at topic before
    exact fresh (order.behind x member key r held tick front topic before)
  · rw [unread r']
    split
    · exact inLine.2
    · exact order.unread r'
  · rw [taken] at member
    rw [numbers]
    refine List.mem_append_left _ ?_
    rcases List.mem_append.mp member with old | new
    · exact order.behind x old key' r' ((owns key' r').mp has) y (fewer later) topic before
    · -- what waits behind the tick is not earlier, and elsewhere it is the first of its topic
      rw [List.mem_singleton.mp new] at topic before
      by_cases same : r' = r
      · rw [unread r', if_pos same] at later
        exact (inLine.1 y later before).elim
      · have other : r' ∈ s.receivers := mem_receivers.mpr ⟨key', (owns key' r').mp has⟩
        exact first fresh r' other same y (fewer later) topic before

theorem InOrder.moves (order : InOrder s) (numbered : Numbered s) (moves : Moves s t)
    (stays : ∀ {n}, Returned s n → Returned t n) : InOrder t := by
  cases moves with
  | quiet taken unread owns keeps =>
    exact order.less stays taken (fun r => by rw [unread r]) owns
  | @sent i p tick found refers taken unread owns =>
    obtain ⟨number, _, earlier⟩ := numbered.tick i p tick found refers
    have underWay : ¬ Returned s tick.number := by
      rintro ⟨q, there, finished⟩
      rw [number, found] at there
      cases there
      unfold PublishStage.tick at refers
      unfold PublishStage.isReturned at finished
      split at finished
      · rename_i returned
        rw [returned] at refers
        cases refers
      · cases finished
    refine order.sent stays underWay (fun n before => ?_) taken unread owns
    rw [earlier] at before
    exact numbered.earlier i p found n before
  | @read key r tick rest held waits unread taken first owns =>
    by_cases known : tick.number ∈ s.numbers
    · rw [if_pos known] at taken
      refine order.less stays taken (fun r' => ?_) fun key' r' has => .inl ((owns key' r').mp has)
      rw [unread r']
      split
      · rename_i same
        rw [same, waits]
        exact List.sublist_cons_self tick rest
      · exact List.Sublist.refl _
    · rw [if_neg known] at taken
      exact order.takes stays held waits known taken unread first owns
  | @replaced old taken unread covered owns keeps =>
    refine order.less stays taken (fun r => ?_) fun key r has => .inl ((owns key r).mp has).1
    rw [unread r]
    split
    · exact List.nil_sublist _
    · exact List.Sublist.refl _

end Client
end QuestRouter.Stream
