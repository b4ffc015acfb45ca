import QuestRouter.Stream.Order

/-!
# Delivery

A publish that begins with the client subscribed to it finds the client's receivers, and its tick stays on the
way until it is read: in the publish, or unread in a receiver.
-/

namespace QuestRouter.Stream
open Text Data Data.Broadcast

namespace Client

variable {F : Type} {setup : StreamSetup F} {s t : Client F}

def Subscribes (s : Client F) (key : Str) : Prop := ∃ r, Owns s key r

/-- A tick was read for the client, or waits in one of its receivers. -/
def Reached (s : Client F) (n : Nat) : Prop :=
  n ∈ s.numbers ∨ ∃ key r, Owns s key r ∧ n ∈ (s.unread r).map fun tick => tick.number

theorem reached_of_unread {key : Str} {r : Nat} {tick : SharedTick F} (owns : Owns s key r)
    (waits : tick ∈ s.unread r) : Reached s tick.number :=
  .inr ⟨key, r, owns, List.mem_map_of_mem waits⟩

/-- What keeps the tick of a publish on the way, by the stage of the publish. -/
def OnTheWay (s : Client F) (i : Nat) (p : Publish F) : Prop :=
  match p.stage with
  | .started => p.topic ≠ wildcardTopic ∧ Subscribes s p.topic ∨ Subscribes s wildcardTopic
  | .sawWildcard wildcard =>
    p.topic ≠ wildcardTopic ∧ Subscribes s p.topic ∨ wildcard = true ∧ Subscribes s wildcardTopic
  | .toTopic _ wildcard =>
    Reached s i ∨ p.topic ≠ wildcardTopic ∧ Subscribes s p.topic ∨ wildcard = true ∧ Subscribes s wildcardTopic
  | .notifiesTopic _ wildcard => Reached s i ∨ wildcard = true ∧ Subscribes s wildcardTopic
  | .toWildcard _ => Reached s i ∨ Subscribes s wildcardTopic
  | .notifiesWildcard | .returned => Reached s i

/-- Nothing that is due to the client gets lost. -/
def Fed (setup : StreamSetup F) (s : Client F) : Prop :=
  ∀ (i : Nat) (p : Publish F), s.publishes[i]? = some p → p.due = true →
    (setup.encodeTick p.row).isSome = true ∧ OnTheWay s i p

/-! ### Moves -/

theorem Moves.subscribes (moves : Moves s t) {key : Str} (has : Subscribes s key) : Subscribes t key := by
  obtain ⟨r, owns⟩ := has
  cases moves with
  | quiet _ _ _ keeps => exact ⟨r, keeps key r owns⟩
  | sent _ _ _ _ _ same => exact ⟨r, (same key r).mpr owns⟩
  | read _ _ _ _ _ same => exact ⟨r, (same key r).mpr owns⟩
  | replaced _ _ _ _ keeps => exact keeps key ⟨r, owns⟩

theorem Moves.reached (moves : Moves s t) {n : Nat} (was : Reached s n) : Reached t n := by
  cases moves with
  | quiet taken unread owns keeps =>
    rcases was with before | ⟨key, r, has, waits⟩
    · exact .inl (numbers_of_taken taken ▸ before)
    · exact .inr ⟨key, r, keeps key r has, by rw [unread r]; exact waits⟩
  | sent tick found refers taken unread owns =>
    rcases was with before | ⟨key, r, has, waits⟩
    · exact .inl (numbers_of_taken taken ▸ before)
    · refine .inr ⟨key, r, (owns key r).mpr has, ?_⟩
      rcases unread r with same | more
      · rw [same]
        exact waits
      · rw [more, List.map_append]
        exact List.mem_append_left _ waits
  | @read key r tick rest held waits unread taken first owns =>
    have grows : ∀ {m}, m ∈ s.numbers ∨ m = tick.number → m ∈ t.numbers := by
      intro m either
      by_cases known : tick.number ∈ s.numbers
      · rw [if_pos known] at taken
        rw [numbers_of_taken taken]
        exact either.elim id fun same => same ▸ known
      · rw [if_neg known] at taken
        unfold Client.numbers
        rw [taken, List.map_append]
        exact List.mem_append.mpr (either.imp_right List.mem_singleton.mpr)
    rcases was with before | ⟨key', r', has, later⟩
    · exact .inl (grows (.inl before))
    · by_cases same : r' = r
      · subst same
        rw [waits, List.map_cons] at later
        rcases List.mem_cons.mp later with front | behind
        · exact .inl (grows (.inr front))
        · exact .inr ⟨key', r', (owns key' r').mpr has, by rw [unread r', if_pos rfl]; exact behind⟩
      · exact .inr ⟨key', r', (owns key' r').mpr has, by rw [unread r', if_neg same]; exact later⟩
  | @replaced old taken unread covered owns keeps =>
    have others : ∀ {r}, r ≠ old → (∃ key, Owns s key r) → n ∈ (s.unread r).map (fun tick => tick.number) →
        Reached t n := by
      rintro r different ⟨key, has⟩ later
      exact .inr ⟨key, r, (owns key r).mpr ⟨has, different⟩, by rw [unread r, if_neg different]; exact later⟩
    rcases was with before | ⟨key, r, has, later⟩
    · exact .inl (numbers_of_taken taken ▸ before)
    · by_cases same : r = old
      · subst same
        obtain ⟨tick, waits, rfl⟩ := List.mem_map.mp later
        rcases covered tick waits with before | ⟨r', listed, different, elsewhere⟩
        · exact .inl (numbers_of_taken taken ▸ before)
        · exact others different (mem_receivers.mp listed) elsewhere
      · exact others same ⟨key, has⟩ later

theorem Moves.onTheWay (moves : Moves s t) {i : Nat} {p : Publish F} (way : OnTheWay s i p) : OnTheWay t i p := by
  have subscribes : ∀ {key}, Subscribes s key → Subscribes t key := moves.subscribes
  have reached : Reached s i → Reached t i := moves.reached
  unfold OnTheWay at way ⊢
  split at way
  · exact way.imp (And.imp_right subscribes) subscribes
  · exact way.imp (And.imp_right subscribes) (And.imp_right subscribes)
  · exact way.imp reached (Or.imp (And.imp_right subscribes) (And.imp_right subscribes))
  · exact way.imp reached (And.imp_right subscribes)
  · exact way.imp reached subscribes
  · exact reached way
  · exact reached way

/-! ### Publishing to the client -/

/-- The client's receiver of a topic listens to the channel of the topic. -/
theorem attached_topic (attends : Attends s) {topic : Str} (one : topic ≠ wildcardTopic)
    (has : Subscribes s topic) : ∃ r rc ch, Owns s topic r ∧ s.hub.bus.receiver r = some rc ∧
      s.hub.topics.get topic = some ch ∧ rc.channel = ch.tx := by
  obtain ⟨r, owns⟩ := has
  obtain ⟨rc, live, _, known⟩ := attends.attached topic r owns
  rw [BroadcastHub.channelOf_topic one] at known
  obtain ⟨ch, found, tx⟩ := Option.map_eq_some_iff.mp known
  exact ⟨r, rc, ch, owns, live, found, tx.symm⟩

theorem topicReceiverCount_of_subscribes (attends : Attends s) {topic : Str} (one : topic ≠ wildcardTopic)
    (has : Subscribes s topic) : 0 < s.hub.topicReceiverCount topic := by
  obtain ⟨r, rc, ch, _, live, found, on⟩ := attached_topic attends one has
  exact BroadcastHub.topicReceiverCount_pos.mpr ⟨ch, r, rc, found, live, on⟩

theorem wildcardSubscribers_of_subscribes (attends : Attends s) (has : Subscribes s wildcardTopic) :
    0 < s.hub.wildcardSubscribers := by
  obtain ⟨r, owns⟩ := has
  exact attends.counted r owns

theorem begin_onTheWay (attends : Attends s) {topic : Str} {row : IlpRow F}
    (due : (s.begin setup topic row).due = true) (i : Nat) :
    (setup.encodeTick row).isSome = true ∧ OnTheWay s i (s.begin setup topic row) := by
  unfold begin at due
  simp only [Bool.and_eq_true, Bool.or_eq_true, subscribed_iff] at due
  obtain ⟨encodes, subscribes⟩ := due
  have either : topic ≠ wildcardTopic ∧ Subscribes s topic ∨ Subscribes s wildcardTopic := by
    rcases subscribes with one | all
    · by_cases same : topic = wildcardTopic
      · exact .inr (same ▸ one)
      · exact .inl ⟨same, one⟩
    · exact .inr all
  have somebody : s.hub.hasSubscribers = true := by
    rcases either with ⟨one, has⟩ | all
    · obtain ⟨r, rc, ch, _, live, found, on⟩ := attached_topic attends one has
      exact BroadcastHub.hasSubscribers_iff.mpr (.inr ⟨topic, ch, r, rc, found, live, on⟩)
    · exact BroadcastHub.hasSubscribers_iff.mpr (.inl (wildcardSubscribers_of_subscribes attends all))
  refine ⟨encodes, ?_⟩
  unfold OnTheWay begin
  rw [somebody]
  exact either

theorem sent_reached (config : StreamConfig) {channel : Nat} {tick : SharedTick F} {key : Str} {r : Nat}
    {rc : Receiver (SharedTick F)} (live : s.hub.bus.receiver r = some rc) (on : rc.channel = channel)
    (sent : t.hub.bus = s.hub.bus.send config.capacity channel tick) (owns : Owns t key r) : Reached t tick.number := by
  refine reached_of_unread owns ?_
  unfold unread Bus.unread
  rw [sent, Bus.send_receiver, live]
  simp only [Option.map_some, on, ↓reduceIte, Option.getD_some]
  exact Bus.deliver_mem rc config.capacity_pos tick

/-- Each stage hands the tick on to the next one. -/
theorem publisher_onTheWay {i : Nat} {p : Publish F} (attends : Attends s) (numbered : Numbered s)
    (moves : Moves s t) (found : s.publishes[i]? = some p) (encodes : (setup.encodeTick p.row).isSome = true)
    (way : OnTheWay s i p) (does : Publishes setup s i p t) {q : Publish F} (goes : t.publishes[i]? = some q) :
    OnTheWay t i q := by
  have set : ∀ {stage}, (s.setStage i p stage).publishes[i]? = some q → q = { p with stage } := by
    intro stage there
    change (s.publishes.set i _)[i]? = some q at there
    rw [Machine.getElem?_replaced found, if_pos rfl] at there
    exact (Option.some.inj there).symm
  have subscribes : ∀ {key}, Subscribes s key → Subscribes t key := moves.subscribes
  have reached : Reached s i → Reached t i := moves.reached
  unfold OnTheWay at way
  cases does with
  | load stage =>
    obtain rfl := set goes
    rw [stage] at way
    refine way.imp (And.imp_right subscribes) fun all => ⟨?_, subscribes all⟩
    exact decide_eq_true (wildcardSubscribers_of_subscribes attends all)
  | turnBack stage nobody =>
    rw [stage] at way
    rcases nobody with ⟨unloaded, silent⟩ | fails
    · rcases way with ⟨one, has⟩ | ⟨loaded, _⟩
      · exact (silent (topicReceiverCount_of_subscribes attends one has)).elim
      · rw [unloaded] at loaded
        cases loaded
    · rw [fails] at encodes
      cases encodes
  | allocate stage encoded free somebody =>
    obtain rfl := set goes
    rw [stage] at way
    by_cases receivers : 0 < s.hub.topicReceiverCount p.topic
    · rw [if_pos receivers]
      exact .inr (way.imp (And.imp_right subscribes) (And.imp_right subscribes))
    · rw [if_neg receivers]
      rcases way with ⟨one, has⟩ | ⟨_, all⟩
      · exact (receivers (topicReceiverCount_of_subscribes attends one has)).elim
      · exact .inr (subscribes all)
  | @sendTopic tick wildcard stage =>
    obtain rfl := set goes
    obtain ⟨number, sameTopic, _⟩ := numbered.tick i p tick found (by rw [stage]; rfl)
    rw [stage] at way
    rcases way with before | ⟨one, has⟩ | ⟨loaded, all⟩
    · exact .inl (reached before)
    · obtain ⟨r, rc, ch, owns, live, known, on⟩ := attached_topic attends one has
      left
      rw [← number]
      refine sent_reached setup.config live on ?_ owns
      dsimp only
      rw [BroadcastHub.sendToTopic_bus, sameTopic, BroadcastHub.getOrCreateTopic_of_get known]
    · exact .inr ⟨loaded, subscribes all⟩
  | @notifyTopic tick wildcard stage =>
    obtain rfl := set goes
    rw [stage] at way
    cases wildcard with
    | true => exact way.imp reached fun all => subscribes all.2
    | false => exact way.elim reached fun all => nomatch all.1
  | @sendWildcard tick stage =>
    obtain rfl := set goes
    obtain ⟨number, _, _⟩ := numbered.tick i p tick found (by rw [stage]; rfl)
    rw [stage] at way
    rcases way with before | ⟨r, owns⟩
    · exact reached before
    · obtain ⟨rc, live, _, known⟩ := attends.attached _ r owns
      rw [BroadcastHub.channelOf_wildcard] at known
      change Reached _ i
      rw [← number]
      exact sent_reached setup.config live (Option.some.inj known).symm rfl owns
  | notifyWildcard stage =>
    obtain rfl := set goes
    rw [stage] at way
    exact reached way

theorem Fed.step {e : ClientEvent} (fed : Fed setup s) (attends : Attends s) (numbered : Numbered s)
    (moves : Moves s t) (h : Client.step setup s e = some t) : Fed setup t := by
  intro j q there due
  rcases (step_turns h).before there with was | ⟨topic, row, rfl⟩ | ⟨p, stage, found, does, rfl, _⟩
  · exact (fed j q was due).imp_right moves.onTheWay
  · exact (begin_onTheWay attends due j).imp_right moves.onTheWay
  · obtain ⟨encodes, way⟩ := fed j p found due
    exact ⟨encodes, publisher_onTheWay attends numbered moves found encodes way does there⟩

/-! ### Every run -/

theorem drained_isEnded (config : StreamConfig) (enabled : Bool) (drain : Drain F)
    (ends : (s.drained config enabled drain).fanout.isEnded = true) : config.maxClientLagDrops ≤ s.lagDrops := by
  unfold drained at ends
  split at ends
  · dsimp only at ends
    split at ends
    · assumption
    · split at ends <;> cases ends
  · dsimp only at ends
    split at ends <;> cases ends

/-- A client that keeps up is not dropped. -/
theorem step_goesOn {e : ClientEvent} (attends : Attends s) (h : step setup s e = some t)
    (lags : 0 < setup.config.maxClientLagDrops) (goesOn : s.fanout.isEnded = false) : t.fanout.isEnded = false := by
  have drained : ∀ {u : Client F} {enabled drain}, u.lagDrops = 0 →
      (u.drained setup.config enabled drain).fanout.isEnded = false := by
    intro u enabled drain keepsUp
    rw [← Bool.not_eq_true]
    intro ends
    have many := drained_isEnded _ _ _ ends
    omega
  cases step_does h with
  | publish line =>
    unfold Client.publish
    split <;> exact goesOn
  | publisher address found publishes => cases publishes <;> exact goesOn
  | subscribe key stage => exact goesOn
  | unsubscribe key stage =>
    unfold Client.unsubscribe
    split <;> exact goesOn
  | reader reads =>
    cases reads with
    | takeOut stage free =>
      change (s.fanout.forget _).isEnded = false
      unfold FanoutStage.forget
      split
      · rfl
      · exact goesOn
    | _ => exact goesOn
  | receive stage current held receives =>
    obtain ⟨_, _, _, ⟨_, _, _, rfl⟩ | ⟨_, rfl⟩⟩ := attends.receives held receives <;> rfl
  | finish stage free visited => exact drained ((takeOuts_same s _).2.2.1.trans attends.keepsUp)
  | look stage => rfl
  | sleep stage => exact goesOn
  | visit stage free held fresh => rfl
  | enable stage => rfl
  | awake stage woken => rfl

/-- What the client is promised: no tick is queued twice, ticks of one topic are queued in the order of their
publishes, a tick that is due waits for it until it is queued, and it is served as long as it keeps up. -/
structure Delivered (setup : StreamSetup F) (s : Client F) : Prop where
  once : (s.queued.map fun tick => tick.number).Nodup
  inOrder : s.queued.Pairwise fun x y => y.topic = x.topic → y.number ∉ x.earlier
  reached : ∀ (i : Nat) (p : Publish F), s.publishes[i]? = some p → p.due = true → p.stage.isReturned = true →
    Reached s i
  queued : ∀ (i : Nat) (p : Publish F), s.publishes[i]? = some p → p.due = true → p.stage.isReturned = true →
    s.fanout.pending = [] → (∀ r ∈ s.receivers, s.unread r = []) →
      (s.queued.map fun tick => tick.number).count i = 1
  served : 0 < setup.config.maxClientLagDrops → s.fanout.isEnded = false

/-- What holds in every state of an undisturbed run. -/
structure Serves (setup : StreamSetup F) (s : Client F) : Prop where
  attends : Attends s
  numbered : Numbered s
  order : InOrder s
  fed : Fed setup s
  goesOn : 0 < setup.config.maxClientLagDrops → s.fanout.isEnded = false

theorem serves_start : Serves setup (start : Client F) :=
  ⟨attends_start, ⟨nofun, nofun⟩, inOrder_start, nofun, fun _ => rfl⟩

theorem Serves.step {e : ClientEvent} (serves : Serves setup s) (undisturbed : Undisturbed setup s e)
    (h : Client.step setup s e = some t) : Serves setup t := by
  have moves := step_moves serves.attends undisturbed h
  have turns := step_turns h
  exact ⟨serves.attends.step undisturbed.1 h, numbered_of_turns serves.numbered turns,
    serves.order.moves serves.numbered moves (returned_of_turns turns),
    serves.fed.step serves.attends serves.numbered moves h,
    fun lags => step_goesOn serves.attends h lags (serves.goesOn lags)⟩

theorem Serves.delivered (serves : Serves setup s) : Delivered setup s := by
  have queued : s.queued.Sublist s.taken := List.sublist_append_left _ _
  have once : (s.queued.map fun tick => tick.number).Nodup := serves.order.once.sublist (queued.map _)
  have reached : ∀ (i : Nat) (p : Publish F), s.publishes[i]? = some p → p.due = true →
      p.stage.isReturned = true → Reached s i := by
    intro i p found due finished
    have way := (serves.fed i p found due).2
    unfold PublishStage.isReturned at finished
    unfold OnTheWay at way
    split at finished
    · rename_i returned
      rw [returned] at way
      exact way
    · cases finished
  refine ⟨once, serves.order.taken.sublist queued, reached, fun i p found due finished none empty => ?_, serves.goesOn⟩
  refine List.count_eq_one_of_mem once ?_
  rcases reached i p found due finished with taken | ⟨key, r, owns, waits⟩
  · have all : s.numbers = s.queued.map fun tick => tick.number := by
      unfold numbers Client.taken
      rw [none, List.append_nil]
    rw [← all]
    exact taken
  · rw [empty r (mem_receivers.mpr ⟨key, owns⟩)] at waits
    cases waits

variable {events : List ClientEvent}

/-- In a run in which the client does not unsubscribe and no receiver lags, in which a receiver is replaced only
when its ticks are elsewhere, every tick is recognised by its address exactly in the drain that took it, and no
receiver is read ahead of another, each tick that is due reaches the client once, in the order of its topic. -/
theorem delivered_once (meets : Machine.Meets (step setup) (Undisturbed setup) start events)
    (reached : Machine.run (step setup) start events = some s) : Delivered setup s :=
  (Machine.invariant_run_of_meets (fun _ _ _ serves undisturbed h => Serves.step serves undisturbed h) serves_start meets
    reached).delivered

/-- A client on one topic; its tick is published and drained. -/
def oneTopic : List ClientEvent :=
  [.subscribe "A".toList, .reader, .publish trade, .publisher 0 7, .publisher 0 7, .publisher 0 7, .publisher 0 7,
    .look, .visit "A".toList, .receive, .receive, .finish]

theorem delivered_once_trade : ∃ s, Machine.run (step tradesSetup) start oneTopic = some s ∧
    (s.queued.map fun tick => tick.number).count 0 = 1 := by
  obtain ⟨s, reached, p, found, due, finished, none, empty⟩ : ∃ s,
      Machine.run (step tradesSetup) start oneTopic = some s ∧ ∃ p, s.publishes[0]? = some p ∧ p.due = true ∧
        p.stage.isReturned = true ∧ s.fanout.pending = [] ∧ ∀ r ∈ s.receivers, s.unread r = [] :=
    ⟨_, rfl, _, rfl, by decide +kernel, by decide +kernel, rfl, by decide +kernel⟩
  have meets : Machine.Meets (step tradesSetup) (Undisturbed tradesSetup) start oneTopic := by decide +kernel
  exact ⟨s, reached, (delivered_once meets reached).queued 0 p found due finished none empty⟩

/-- A client on a topic and on all topics; the fan-out task drains between the two sends of a tick. -/
def bothChannels : List ClientEvent :=
  [.subscribe "A".toList, .reader, .subscribe wildcardTopic, .reader, .publish trade, .publisher 0 7,
    .publisher 0 7, .publisher 0 7, .publisher 0 7, .look, .visit "A".toList, .receive, .receive,
    .visit wildcardTopic, .receive, .finish, .publisher 0 7, .publisher 0 7, .visit wildcardTopic, .receive, .receive,
    .visit "A".toList, .receive, .finish]

theorem delivered_twice : ∃ s, Machine.run (step tradesSetup) start bothChannels = some s ∧
    (s.queued.map fun tick => tick.number).count 0 = 2 :=
  ⟨_, rfl, by decide +kernel⟩

end Client
end QuestRouter.Stream
