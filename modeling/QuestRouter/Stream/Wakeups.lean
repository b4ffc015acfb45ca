import QuestRouter.Stream.ClientSteps

/-!
# Wake-ups

The fan-out task waits with every entry drained since it enabled its notification, and whoever sends a tick
notifies it. What it can miss is a receiver with ticks in it that is inserted in the map behind its back.
-/

namespace QuestRouter.Stream
open Text Data Data.Broadcast

namespace Client

variable {F : Type}

/-- The fan-out task was notified, or a publish is about to notify it of what it has sent. -/
def wakes (s : Client F) : Bool := s.woken || s.publishes.any fun p => p.stage.notifies

def asleep (s : Client F) : Bool :=
  !s.wakes &&
    match s.fanout with
    | .awaiting => true
    | _ => false

/-- The fan-out task does not sleep on a tick. -/
def NothingUnread (s : Client F) : Prop :=
  s.asleep = true → ∀ key r, s.subscriptions.get key = some r → s.hub.bus.unread r = []

/-- No receiver with ticks in it is inserted while the fan-out task sleeps, or is there to be overlooked when it
goes to sleep: inserted since the notification was enabled, and not taken out with what is closed. -/
def InsertsRead (setup : StreamSetup F) (s : Client F) : ClientEvent → Prop
  | .reader =>
    match s.reader with
    | .holding _ r => s.asleep = true → s.hub.bus.unread r = []
    | _ => True
  | .finish =>
    match s.fanout with
    | .draining true drain =>
      s.wakes = false → drain.pending = [] → s.lagDrops < setup.config.maxClientLagDrops →
        ∀ key ∈ s.inserted, key ∉ drain.closed → ∀ r, s.subscriptions.get key = some r → s.hub.bus.unread r = []
    | _ => True
  | _ => True

variable {setup : StreamSetup F} {s t : Client F}

theorem asleep_iff : s.asleep = true ↔ s.fanout = .awaiting ∧ s.wakes = false := by
  unfold asleep
  cases s.fanout <;> simp

/-! ### The second drain -/

/-- With the notification enabled and nobody about to use it, what the drain has passed is empty, unless it was
inserted since; and what it need not pass was inserted since. -/
structure Passed (s : Client F) : Prop where
  owned : Owned s
  emptied : ∀ drain, s.fanout = .draining true drain → s.wakes = false → ∀ key r,
    s.subscriptions.get key = some r → key ∈ drain.visited → key ∉ s.inserted → s.hub.bus.unread r = []
  started : ∀ drain, s.fanout = .draining true drain → ∀ key ∈ s.subscriptions.keys,
    key ∈ drain.start ∨ key ∈ s.inserted

theorem passed_start : Passed (start : Client F) := ⟨owned_start, nofun, nofun⟩

theorem mem_keys {ν : Type} {m : HashMap Str ν} {key : Str} : key ∈ m.keys ↔ (m.get key).isSome = true :=
  AList.lookup_isSome.symm

/-- Nothing is sent, and the map and the drain stay. -/
theorem Passed.frame (passed : Passed s) (owned : Owned t) (fanout : t.fanout = s.fanout)
    (inserted : t.inserted = s.inserted) (subscriptions : t.subscriptions = s.subscriptions)
    (wakes : t.wakes = false → s.wakes = false)
    (unread : t.wakes = false → ∀ r, s.hub.bus.unread r = [] → t.hub.bus.unread r = []) : Passed t := by
  refine ⟨owned, fun drain stage quiet key r found visited old => ?_, fun drain stage key held => ?_⟩
  · rw [fanout] at stage
    rw [subscriptions] at found
    rw [inserted] at old
    exact unread quiet r (passed.emptied drain stage (wakes quiet) key r found visited old)
  · rw [fanout] at stage
    rw [subscriptions] at held
    rw [inserted]
    exact passed.started drain stage key held

/-- Outside the second drain there is nothing to say. -/
theorem Passed.outside (owned : Owned t) (other : ∀ drain, t.fanout ≠ .draining true drain) : Passed t :=
  ⟨owned, fun drain stage => (other drain stage).elim, fun drain stage => (other drain stage).elim⟩

theorem NothingUnread.frame (nothing : NothingUnread s) (asleep : t.asleep = true → s.asleep = true)
    (subscriptions : ∀ key r, t.subscriptions.get key = some r → s.subscriptions.get key = some r)
    (unread : t.asleep = true → ∀ key r, t.subscriptions.get key = some r → s.hub.bus.unread r = [] →
      t.hub.bus.unread r = []) : NothingUnread t := by
  intro sleeps key r found
  exact unread sleeps key r found (nothing (asleep sleeps) key r (subscriptions key r found))

theorem nothingUnread_awake (awake : t.asleep = false) : NothingUnread t := by
  intro sleeps
  rw [awake] at sleeps
  cases sleeps

theorem nothingUnread_elsewhere (waits : t.fanout ≠ .awaiting) : NothingUnread t :=
  fun sleeps => (waits (asleep_iff.mp sleeps).1).elim

/-- A step that leaves the map, what is unread and who wakes. -/
theorem Passed.aside (passed : Passed s) (nothing : NothingUnread s) (owned : Owned t) (fanout : t.fanout = s.fanout)
    (inserted : t.inserted = s.inserted) (subscriptions : t.subscriptions = s.subscriptions)
    (wakes : t.wakes = false → s.wakes = false) (bus : t.hub.bus = s.hub.bus) : Passed t ∧ NothingUnread t := by
  refine ⟨passed.frame owned fanout inserted subscriptions wakes fun _ _ empty => bus ▸ empty,
    nothing.frame (fun sleeps => ?_) (fun _ _ held => subscriptions ▸ held) fun _ _ _ _ empty => bus ▸ empty⟩
  obtain ⟨waits, quiet⟩ := asleep_iff.mp sleeps
  exact asleep_iff.mpr ⟨fanout ▸ waits, wakes quiet⟩

/-! ### Publishers -/

theorem any_set_false {p : Publish F} {l : List (Publish F)} {i : Nat} {q : Publish F} {f : Publish F → Bool}
    (found : l[i]? = some p) (was : f p = false) (none : (l.set i q).any f = false) : l.any f = false := by
  rw [List.any_eq_false] at none ⊢
  intro x member
  obtain ⟨j, there⟩ := List.mem_iff_getElem?.mp member
  by_cases same : j = i
  · subst same
    rw [found] at there
    cases there
    simp [was]
  · exact none x (List.mem_iff_getElem?.mpr ⟨j, by rw [Machine.getElem?_replaced found, if_neg same, there]⟩)

theorem wakes_setStage {i : Nat} {p : Publish F} (found : s.publishes[i]? = some p)
    (was : p.stage.notifies = false) (stage : PublishStage F) (quiet : (s.setStage i p stage).wakes = false) :
    s.wakes = false := by
  unfold wakes at quiet ⊢
  rw [Bool.or_eq_false_iff] at quiet ⊢
  exact ⟨quiet.1, any_set_false (f := fun p => p.stage.notifies) found was quiet.2⟩

theorem wakes_sent {i : Nat} {p : Publish F} (found : s.publishes[i]? = some p) {stage : PublishStage F}
    (notifies : stage.notifies = true) (hub : BroadcastHub (IlpRow F) (SharedTick F)) :
    ({ s.setStage i p stage with hub } : Client F).wakes = true := by
  unfold wakes
  rw [Bool.or_eq_true]
  right
  obtain ⟨inside, _⟩ := List.getElem?_eq_some_iff.mp found
  exact List.any_eq_true.mpr ⟨_, List.mem_set inside _, notifies⟩

/-- Whoever waits with the notification enabled is woken. -/
theorem Passed.awake (passed : Passed s) (owned : Owned t) (fanout : t.fanout = s.fanout)
    (inserted : t.inserted = s.inserted) (subscriptions : t.subscriptions = s.subscriptions)
    (awake : t.fanout.enabled = true → t.wakes = true) : Passed t ∧ NothingUnread t := by
  refine ⟨⟨owned, fun drain stage quiet => ?_, fun drain stage key held => ?_⟩, nothingUnread_awake ?_⟩
  · rw [awake (by rw [stage]; rfl)] at quiet
    cases quiet
  · rw [fanout] at stage
    rw [subscriptions] at held
    rw [inserted]
    exact passed.started drain stage key held
  · rw [← Bool.not_eq_true, asleep_iff]
    rintro ⟨stage, quiet⟩
    rw [awake (by rw [stage]; rfl)] at quiet
    cases quiet

theorem wakes_notified (woken : t.woken = s.notify.woken) (fanout : t.fanout = s.fanout)
    (enabled : t.fanout.enabled = true) : t.wakes = true := by
  unfold wakes
  rw [woken, notify, ← fanout, enabled, Bool.or_true, Bool.true_or]

theorem publisher_quiet {i : Nat} {p : Publish F} (passed : Passed s) (nothing : NothingUnread s)
    (found : s.publishes[i]? = some p) (does : Publishes setup s i p t) : Passed t ∧ NothingUnread t := by
  have owned : Owned t := publisher_owned passed.owned does
  have stays : p.stage.notifies = false → ∀ stage, Passed (s.setStage i p stage) ∧
      NothingUnread (s.setStage i p stage) :=
    fun was stage => passed.aside nothing (passed.owned.aside rfl rfl rfl) rfl rfl rfl (wakes_setStage found was stage) rfl
  cases does with
  | load stage => exact stays (by rw [stage]; rfl) _
  | turnBack stage nobody => exact stays (by rw [stage]; rfl) _
  | allocate stage encoded free somebody => exact stays (by rw [stage]; rfl) _
  | sendTopic stage => exact passed.awake owned rfl rfl rfl fun _ => wakes_sent found rfl _
  | notifyTopic stage =>
    exact passed.awake owned rfl rfl rfl (wakes_notified rfl rfl)
  | sendWildcard stage => exact passed.awake owned rfl rfl rfl fun _ => wakes_sent found rfl _
  | notifyWildcard stage =>
    exact passed.awake owned rfl rfl rfl (wakes_notified rfl rfl)

/-! ### Reader -/

theorem insert_quiet {key : Str} {r : Nat} (passed : Passed s) (nothing : NothingUnread s)
    (stage : s.reader = .holding key r) :
    Passed (s.insert key r) ∧ (NothingUnread (s.insert key r) ↔ InsertsRead setup s .reader) := by
  have free := (passed.owned.held key r stage).2
  have entry : (s.insert key r).subscriptions.get key = some r := HashMap.get_insert _ _ _
  have others : ∀ {other}, other ≠ key →
      (s.insert key r).subscriptions.get other = s.subscriptions.get other :=
    fun different => HashMap.get_insert_ne _ _ different
  have keeps : ∀ {other r'}, other ≠ key → s.subscriptions.get other = some r' →
      (s.insert key r).hub.bus.unread r' = s.hub.bus.unread r' := by
    intro other r' different found
    change (s.hub.dropHeld _).bus.unread r' = _
    rw [dropHeld_unread, if_neg]
    exact fun same => different (passed.owned.apart other key r' found same)
  have new : (s.insert key r).hub.bus.unread r = s.hub.bus.unread r := by
    change (s.hub.dropHeld _).bus.unread r = _
    rw [dropHeld_unread, if_neg (free key)]
  refine ⟨⟨passed.owned.insert stage, fun drain drains quiet other r' found visited old => ?_,
    fun drain drains other held => ?_⟩, ?_⟩
  · obtain ⟨different, old⟩ := List.ne_and_not_mem_of_not_mem_cons old
    rw [others different] at found
    rw [keeps different found]
    exact passed.emptied drain drains quiet other r' found visited old
  · by_cases same : other = key
    · exact .inr (same ▸ List.mem_cons_self)
    · rw [mem_keys, others same, ← mem_keys] at held
      exact (passed.started drain drains other held).imp_right (List.mem_cons_of_mem _)
  · unfold InsertsRead
    rw [stage]
    constructor
    · intro empty sleeps
      rw [← new]
      exact empty sleeps key r entry
    · intro empty sleeps other r' found
      by_cases same : other = key
      · subst same
        rw [entry] at found
        cases found
        rw [new]
        exact empty sleeps
      · rw [others same] at found
        rw [keeps same found]
        exact nothing sleeps other r' found

theorem takeOut_quiet (passed : Passed s) (nothing : NothingUnread s) (key : Str) (reader : ReaderStage)
    (owned : Owned { s.takeOut key with reader }) :
    Passed { s.takeOut key with reader } ∧ NothingUnread { s.takeOut key with reader } := by
  have entry : ∀ {other r}, (s.takeOut key).subscriptions.get other = some r →
      other ≠ key ∧ s.subscriptions.get other = some r := by
    intro other r found
    rw [takeOut_get] at found
    split at found
    · cases found
    · rename_i different
      exact ⟨different, found⟩
  have drains : ∀ {drain}, s.fanout.forget key = .draining true drain →
      ∃ before, s.fanout = .draining true before ∧
        drain = { before with start := before.start.filter (· ≠ key) } := by
    intro drain forgot
    cases stage : s.fanout with
    | draining enabled before =>
      rw [stage] at forgot
      cases forgot
      exact ⟨before, rfl, rfl⟩
    | _ => rw [stage] at forgot; cases forgot
  refine ⟨⟨owned, fun drain stage quiet other r found visited old => ?_, fun drain stage other held => ?_⟩,
    nothing.frame (fun sleeps => ?_) (fun other r found => (entry found).2) fun _ other r found empty => ?_⟩
  · obtain ⟨before, was, rfl⟩ := drains stage
    obtain ⟨different, found⟩ := entry found
    refine (takeOut_unread passed.owned found different).trans ?_
    exact passed.emptied before was quiet other r found visited old
  · obtain ⟨before, was, rfl⟩ := drains stage
    obtain ⟨r, found⟩ := Option.isSome_iff_exists.mp (mem_keys.mp held)
    obtain ⟨different, found⟩ := entry found
    have inMap : other ∈ s.subscriptions.keys := mem_keys.mpr (by rw [found]; rfl)
    exact (passed.started before was other inMap).imp_left fun first =>
      List.mem_filter.mpr ⟨first, decide_eq_true different⟩
  · obtain ⟨waits, quiet⟩ := asleep_iff.mp sleeps
    refine asleep_iff.mpr ⟨?_, quiet⟩
    change s.fanout.forget key = .awaiting at waits
    cases stage : s.fanout with
    | awaiting => rfl
    | _ => rw [stage] at waits; cases waits
  · obtain ⟨different, found⟩ := entry found
    exact (takeOut_unread passed.owned found different).trans empty

theorem reader_quiet (passed : Passed s) (nothing : NothingUnread s) (reads : Reads s t) :
    Passed t ∧ (NothingUnread t ↔ InsertsRead setup s .reader) := by
  have owned : Owned t := reader_owned passed.owned reads
  have other : (∀ key r, s.reader ≠ .holding key r) → InsertsRead setup s .reader := by
    intro idle
    unfold InsertsRead
    cases stage : s.reader with
    | holding key r => exact (idle key r stage).elim
    | _ => trivial
  have always : Passed t ∧ NothingUnread t → (∀ key r, s.reader ≠ .holding key r) →
      Passed t ∧ (NothingUnread t ↔ InsertsRead setup s .reader) :=
    fun quiet idle => ⟨quiet.1, iff_of_true quiet.2 (other idle)⟩
  cases reads with
  | insert stage free => exact insert_quiet passed nothing stage
  | takeOut stage free => exact always (takeOut_quiet passed nothing _ _ owned) (by simp [stage])
  | count stage => exact always (passed.aside nothing owned rfl rfl rfl id rfl) (by simp [stage])
  | remove stage => exact always (passed.aside nothing owned rfl rfl rfl id rfl) (by simp [stage])
  | notify stage => exact always (passed.awake owned rfl rfl rfl (wakes_notified rfl rfl)) (by simp [stage])

/-! ### Fan-out -/

/-- Outside the second drain and awake. -/
theorem quiet_outside (owned : Owned t) (drains : ∀ drain, t.fanout ≠ .draining true drain)
    (waits : t.fanout ≠ .awaiting) : Passed t ∧ NothingUnread t :=
  ⟨.outside owned drains, nothingUnread_elsewhere waits⟩

theorem drained_fanout (config : StreamConfig) (s : Client F) (enabled : Bool) (drain : Drain F) :
    (∀ d, (s.drained config enabled drain).fanout ≠ .draining true d) ∧
      ((s.drained config enabled drain).fanout = .awaiting ↔
        enabled = true ∧ drain.pending = [] ∧ s.lagDrops < config.maxClientLagDrops) := by
  unfold drained
  cases pending : drain.pending with
  | nil =>
    by_cases many : config.maxClientLagDrops ≤ s.lagDrops
    · simp [many, Nat.not_lt.mpr many]
    · cases enabled <;> simp [many, Nat.lt_of_not_le many]
  | cons tick rest => cases enabled <;> simp

/-- The drain reads on: it empties receivers, and what it has passed is empty. -/
theorem reading_quiet {enabled : Bool} {drain d : Drain F} {bus : Bus (SharedTick F)} {lagDrops : Nat}
    (passed : Passed s) (stage : s.fanout = .draining enabled drain)
    (empties : ∀ r, s.hub.bus.unread r = [] → bus.unread r = [])
    (visits : ∀ key r, s.subscriptions.get key = some r → key ∈ d.visited →
      key ∈ drain.visited ∨ bus.unread r = []) (starts : d.start = drain.start)
    (owned : Owned { s with hub := { s.hub with bus }, fanout := .draining enabled d, lagDrops }) :
    Passed { s with hub := { s.hub with bus }, fanout := .draining enabled d, lagDrops } ∧
      NothingUnread { s with hub := { s.hub with bus }, fanout := .draining enabled d, lagDrops } := by
  refine ⟨⟨owned, fun d' drains quiet key r found visited old => ?_, fun d' drains key inMap => ?_⟩,
    nothingUnread_elsewhere nofun⟩
  · cases drains
    rcases visits key r found visited with before | empty
    · exact empties r (passed.emptied drain stage quiet key r found before old)
    · exact empty
  · cases drains
    rw [starts]
    exact passed.started drain stage key inMap

theorem receive_quiet {enabled : Bool} {drain : Drain F} {key : Str} {r : Nat} (passed : Passed s) (owned : Owned t)
    (stage : s.fanout = .draining enabled drain) (held : s.subscriptions.get key = some r)
    (receives : Receives setup.config s enabled drain key r t) : Passed t ∧ NothingUnread t := by
  cases receives with
  | @value rc tick rest live unread kept =>
    have take : ∀ d : Drain F, (Drain.take d tick).visited = d.visited ∧ (Drain.take d tick).start = d.start := by
      intro d
      unfold Drain.take
      split <;> exact ⟨rfl, rfl⟩
    refine reading_quiet passed stage (fun r' empty => ?_) (fun other r' _ visited => .inl ?_) (take drain).2 owned
    · rw [Bus.unread_update live]
      split
      · rename_i same
        rw [same, Bus.unread_of_live live, unread] at empty
        cases empty
      · exact empty
    · rwa [(take drain).1] at visited
  | @lagged rc live missed few =>
    have same : ({ s with
        hub := { s.hub with bus := s.hub.bus.update r { rc with missed := 0 } }
        lagDrops := s.lag rc.missed } : Client F) =
      { s with
        hub := { s.hub with bus := s.hub.bus.update r { rc with missed := 0 } }
        fanout := .draining enabled drain
        lagDrops := s.lag rc.missed } := by rw [← stage]
    rw [same] at owned ⊢
    refine reading_quiet passed stage (fun r' empty => ?_) (fun other r' _ visited => .inl visited) rfl owned
    rw [Bus.unread_update live]
    split
    · rename_i same
      rw [same, Bus.unread_of_live live] at empty
      exact empty
    · exact empty
  | @stopped rc live missed many =>
    obtain ⟨drains, waits⟩ := drained_fanout setup.config { s with
      hub := { s.hub with bus := s.hub.bus.update r { rc with missed := 0 } }
      lagDrops := s.lag rc.missed } enabled drain
    refine quiet_outside owned drains fun awaits => ?_
    exact Nat.not_lt.mpr many (waits.mp awaits).2.2
  | @nothing rc live unread kept =>
    refine reading_quiet passed stage (fun _ empty => empty) (fun other r' found visited => ?_) rfl owned
    rcases List.mem_cons.mp visited with same | before
    · right
      subst same
      rw [held] at found
      cases found
      exact (Bus.unread_of_live live).trans unread
    · exact .inl before

theorem finish_quiet {enabled : Bool} {drain : Drain F} (passed : Passed s)
    (stage : s.fanout = .draining enabled drain)
    (visited : ∀ key ∈ drain.start, key ∈ s.subscriptions.keys → key ∈ drain.visited) :
    let t := (drain.closed.foldl takeOut s).drained setup.config enabled drain
    Passed t ∧ (NothingUnread t ↔ InsertsRead setup s .finish) := by
  intro t
  have owned : Owned t := drained_owned (passed.owned.takeOuts _) _ _ _
  obtain ⟨publishes, _, lagDrops, woken, _, _⟩ := takeOuts_same s drain.closed
  obtain ⟨drains, waits⟩ := drained_fanout setup.config (drain.closed.foldl takeOut s) enabled drain
  have rest : t.subscriptions = (drain.closed.foldl takeOut s).subscriptions ∧
      t.hub = (drain.closed.foldl takeOut s).hub ∧ t.wakes = s.wakes := by
    have wakes : (drain.closed.foldl takeOut s).wakes = s.wakes := by unfold wakes; rw [publishes, woken]
    change (drained _ _ _ _).subscriptions = _ ∧ (drained _ _ _ _).hub = _ ∧ (drained _ _ _ _).wakes = _
    unfold drained
    split <;> exact ⟨rfl, rfl, wakes⟩
  refine ⟨.outside owned drains, ?_⟩
  have sleeps : t.asleep = true ↔ s.wakes = false ∧ enabled = true ∧ drain.pending = [] ∧
      s.lagDrops < setup.config.maxClientLagDrops := by
    rw [asleep_iff, rest.2.2, and_comm, waits, lagDrops]
  have entry : ∀ {key r}, t.subscriptions.get key = some r ↔ key ∉ drain.closed ∧ s.subscriptions.get key = some r := by
    intro key r
    rw [rest.1, takeOuts_get]
    split <;> simp_all
  have unread : ∀ {key r}, key ∉ drain.closed → s.subscriptions.get key = some r →
      t.hub.bus.unread r = s.hub.bus.unread r := by
    intro key r stays found
    rw [rest.2.1]
    exact takeOuts_unread passed.owned _ found stays
  unfold InsertsRead
  rw [stage]
  cases enabled with
  | false =>
    refine iff_of_true (nothingUnread_awake ?_) trivial
    rw [← Bool.not_eq_true, sleeps]
    rintro ⟨_, enabled, _⟩
    cases enabled
  | true =>
    constructor
    · intro empty quiet none few key member stays r found
      rw [← unread stays found]
      exact empty (sleeps.mpr ⟨quiet, rfl, none, few⟩) key r (entry.mpr ⟨stays, found⟩)
    · intro inserted asleep key r found
      obtain ⟨quiet, _, none, few⟩ := sleeps.mp asleep
      obtain ⟨stays, found⟩ := entry.mp found
      rw [unread stays found]
      by_cases new : key ∈ s.inserted
      · exact inserted quiet none few key new stays r found
      · have inMap : key ∈ s.subscriptions.keys := mem_keys.mpr (by rw [found]; rfl)
        have first := (passed.started drain stage key inMap).resolve_right new
        exact passed.emptied drain stage quiet key r found (visited key first inMap) new

/-! ### Every run -/

theorem publish_quiet (passed : Passed s) (nothing : NothingUnread s) (line : Bytes) :
    Passed (s.publish setup line) ∧ NothingUnread (s.publish setup line) := by
  unfold Client.publish
  split
  · exact ⟨passed, nothing⟩
  · rename_i topic row published
    have begins : (s.begin setup topic row).stage.notifies = false := by
      unfold begin
      dsimp only
      split <;> rfl
    have wakes : ({ s with publishes := s.publishes ++ [s.begin setup topic row] } : Client F).wakes = s.wakes := by
      unfold Client.wakes
      simp [begins]
    exact passed.aside nothing (passed.owned.aside rfl rfl rfl) rfl rfl rfl (fun quiet => wakes ▸ quiet) rfl

theorem step_quiet {e : ClientEvent} (passed : Passed s) (nothing : NothingUnread s)
    (h : step setup s e = some t) : Passed t ∧ (NothingUnread t ↔ InsertsRead setup s e) := by
  have owned : Owned t := passed.owned.step h
  have always : Passed t ∧ NothingUnread t → InsertsRead setup s e →
      Passed t ∧ (NothingUnread t ↔ InsertsRead setup s e) :=
    fun quiet inserts => ⟨quiet.1, iff_of_true quiet.2 inserts⟩
  cases step_does h with
  | publish line =>
    refine always (publish_quiet passed nothing line) trivial
  | publisher address found publishes => exact always (publisher_quiet passed nothing found publishes) trivial
  | subscribe key stage => exact always (passed.awake owned rfl rfl rfl (wakes_notified rfl rfl)) trivial
  | unsubscribe key stage =>
    refine always ?_ trivial
    unfold Client.unsubscribe at owned ⊢
    split at owned
    · rename_i all
      rw [if_pos all]
      generalize s.hub.unsubscribeWildcard = hub at owned ⊢
      exact passed.awake owned rfl rfl rfl (wakes_notified rfl rfl)
    · rename_i one
      rw [if_neg one]
      exact passed.aside nothing owned rfl rfl rfl id rfl
  | reader reads => exact reader_quiet passed nothing reads
  | look stage => exact always (quiet_outside owned nofun nofun) trivial
  | sleep stage => exact always ⟨passed, nothing⟩ trivial
  | visit stage free held fresh =>
    refine always ?_ trivial
    exact reading_quiet passed stage (fun _ empty => empty) (fun _ _ _ visited => .inl visited) rfl owned
  | receive stage current held receives =>
    exact always (receive_quiet passed owned stage held receives) trivial
  | finish stage free visited => exact finish_quiet passed stage visited
  | enable stage =>
    refine always ⟨⟨owned, fun drain drains quiet key r found visited => ?_, fun drain drains key inMap => ?_⟩,
      nothingUnread_elsewhere nofun⟩ trivial
    · cases drains
      cases visited
    · cases drains
      exact .inl inMap
  | awake stage woken => exact always (quiet_outside owned nofun nofun) trivial

/-- In every state of a run the fan-out task sleeps only with every receiver of the map empty, if and only if no
receiver that holds ticks is inserted too late for it to see. -/
theorem nothing_unread_iff (setup : StreamSetup F) (events : List ClientEvent) :
    Machine.Always (step setup) NothingUnread start events ↔
      Machine.Meets (step setup) (InsertsRead setup) start events := by
  refine Machine.always_iff_meets (I := Passed) (fun s e t passed nothing inserts h => ?_)
    (fun s e t passed nothing h next => ?_) passed_start (nothingUnread_awake rfl)
  · obtain ⟨kept, iff⟩ := step_quiet passed nothing h
    exact ⟨kept, iff.mpr inserts⟩
  · exact (step_quiet passed nothing h).2.mp next

/-- A client on one topic subscribes to a second one; its tick is published, and the fan-out task goes back to
sleep, before the receiver is in the map. -/
def lateInsert : List ClientEvent :=
  [.subscribe "B".toList, .reader, .subscribe "A".toList, .publish trade, .publisher 0 7, .publisher 0 7,
    .publisher 0 7, .publisher 0 7, .look, .visit "B".toList, .receive, .finish, .enable, .visit "B".toList,
    .receive, .finish, .reader]

theorem sleeps_on_tick :
    ∃ s, Machine.run (step tradesSetup) start lateInsert = some s ∧ s.asleep = true ∧
      ∃ r, s.subscriptions.get "A".toList = some r ∧ (s.hub.bus.unread r).length = 1 :=
  ⟨_, rfl, by decide +kernel, 1, by decide +kernel, by decide +kernel⟩

end Client
end QuestRouter.Stream
