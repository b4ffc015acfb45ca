import QuestRouter.Stream.Delivery
import QuestRouter.Stream.Outbound

/-!
# From the hub to the socket

The fan-out task queues the ticks of a drain one after the other before it goes on, the reader queues replays in
between, and the writer sends what is queued. What the socket takes is then as ordered and as complete as what the
drains collect, as long as the queue has room.
-/

namespace QuestRouter.Stream
open Text Data

/-- What a binary message carries. -/
inductive Frame (F : Type) where
  | tick (carried : SharedTick F)
  | replay (topic : Str) (rows : List (IlpRow F))

def Frame.carried {F : Type} : Frame F → Option (SharedTick F)
  | .tick carried => some carried
  | .replay _ _ => none

structure ClientSocket (F : Type) where
  client : Client F := .start
  /-- Collected by a drain, and not queued yet. -/
  owed : List (SharedTick F) := []
  outbound : Outbound (Frame F) := {}

inductive ClientSocketEvent (F : Type) where
  | client (e : ClientEvent)
  /-- The fan-out task queues a tick. -/
  | enqueue
  /-- The reader handles a replay request; it is one that can be encoded. -/
  | replay (topic : Str) (lastN : Nat)
  | outbound (e : OutboundEvent (Frame F))

def ClientEvent.ofFanout : ClientEvent → Bool
  | .look | .visit _ | .receive | .finish | .enable | .awake => true
  | _ => false

namespace ClientSocket

variable {F : Type}

def push (s : ClientSocket F) (frame : Frame F) : Option (ClientSocket F) :=
  (s.outbound.step (.push frame)).map fun outbound => { s with outbound }

def step (setup : StreamSetup F) (s : ClientSocket F) : ClientSocketEvent F → Option (ClientSocket F)
  | .client e =>
    if e.ofFanout && !s.owed.isEmpty then none
    else
      (Client.step setup s.client e).map fun client =>
        { s with client, owed := s.owed ++ client.queued.drop s.client.queued.length }
  | .enqueue =>
    match s.owed with
    | [] => none
    | tick :: owed => { s with owed }.push (.tick tick)
  | .replay topic lastN =>
    match s.client.reader with
    | .idle => s.push (.replay topic (s.client.hub.replay topic lastN))
    | _ => none
  | .outbound (.push _) => none
  | .outbound e => (s.outbound.step e).map fun outbound => { s with outbound }

/-- The ticks that the socket has taken. -/
def sentTicks (s : ClientSocket F) : List (SharedTick F) := s.outbound.sent.filterMap Frame.carried

/-- What the client and the fan-out task do is as it should be. -/
def Undisturbed (setup : StreamSetup F) (s : ClientSocket F) : ClientSocketEvent F → Prop
  | .client e => Client.Undisturbed setup s.client e
  | _ => True

/-- What is queued finds room. -/
def HasRoom (s : ClientSocket F) : ClientSocketEvent F → Prop
  | .enqueue | .replay _ _ => s.outbound.frames.queue.length < outboundCapacity
  | _ => True

instance Undisturbed.decidable (setup : StreamSetup F) (s : ClientSocket F) : ∀ e, Decidable (Undisturbed setup s e)
  | .client e => inferInstanceAs (Decidable (Client.Undisturbed setup s.client e))
  | .enqueue | .replay _ _ | .outbound _ => .isTrue trivial

instance HasRoom.decidable (s : ClientSocket F) : ∀ e, Decidable (HasRoom s e)
  | .enqueue | .replay _ _ => inferInstanceAs (Decidable (s.outbound.frames.queue.length < outboundCapacity))
  | .client _ | .outbound _ => .isTrue trivial

variable {setup : StreamSetup F} {s t : ClientSocket F} {e : ClientSocketEvent F}

/-- What a step is: the client takes one, a frame is pushed, or the outbound queue goes on without a push. -/
inductive Steps (setup : StreamSetup F) (s : ClientSocket F) : ClientSocketEvent F → ClientSocket F → Prop
  | client {e : ClientEvent} {client : Client F} (h : Client.step setup s.client e = some client) :
    Steps setup s (.client e) { s with client, owed := s.owed ++ client.queued.drop s.client.queued.length }
  | enqueue {tick : SharedTick F} {owed : List (SharedTick F)} {outbound : Outbound (Frame F)}
    (first : s.owed = tick :: owed) (h : s.outbound.step (.push (.tick tick)) = some outbound) :
    Steps setup s .enqueue { s with owed, outbound }
  | replay {topic : Str} {lastN : Nat} {outbound : Outbound (Frame F)}
    (h : s.outbound.step (.push (.replay topic (s.client.hub.replay topic lastN))) = some outbound) :
    Steps setup s (.replay topic lastN) { s with outbound }
  | outbound {e : OutboundEvent (Frame F)} {outbound : Outbound (Frame F)} (other : ∀ frame, e ≠ .push frame)
    (h : s.outbound.step e = some outbound) : Steps setup s (.outbound e) { s with outbound }

theorem steps_of_step (h : step setup s e = some t) : Steps setup s e t := by
  cases e with
  | client e =>
    dsimp only [step] at h
    split at h
    · cases h
    · obtain ⟨client, happens, rfl⟩ := Option.map_eq_some_iff.mp h
      exact .client happens
  | enqueue =>
    dsimp only [step] at h
    split at h
    · cases h
    · rename_i tick owed first
      obtain ⟨outbound, happens, rfl⟩ := Option.map_eq_some_iff.mp h
      exact .enqueue first happens
  | replay topic lastN =>
    dsimp only [step] at h
    split at h
    · obtain ⟨outbound, happens, rfl⟩ := Option.map_eq_some_iff.mp h
      exact .replay happens
    · cases h
  | outbound e =>
    have other : ∀ frame, e ≠ .push frame := by
      intro frame same
      rw [same] at h
      cases h
    have goesOn : step setup s (.outbound e) = (s.outbound.step e).map fun outbound => { s with outbound } := by
      cases e <;> first | rfl | exact (other _ rfl).elim
    rw [goesOn] at h
    obtain ⟨outbound, happens, rfl⟩ := Option.map_eq_some_iff.mp h
    exact .outbound other happens

/-! ### What is kept -/

theorem drained_queued {client : Client F} {queued : List (SharedTick F)} (same : client.queued = queued)
    (config : StreamConfig) (enabled : Bool) (drain : Drain F) :
    queued <+: (client.drained config enabled drain).queued := by
  subst same
  unfold Client.drained
  split
  · exact List.prefix_refl _
  · exact List.prefix_append _ _

/-- The client never takes back what it has queued. -/
theorem step_queued {client next : Client F} {e : ClientEvent} (h : Client.step setup client e = some next) :
    client.queued <+: next.queued := by
  cases Client.step_does h with
  | publish line =>
    unfold Client.publish
    split <;> exact List.prefix_refl _
  | publisher address found publishes => cases publishes <;> exact List.prefix_refl _
  | unsubscribe key stage =>
    unfold Client.unsubscribe
    split <;> exact List.prefix_refl _
  | reader reads => cases reads <;> exact List.prefix_refl _
  | receive stage current held receives =>
    cases receives with
    | stopped live missed many =>
      refine drained_queued ?_ _ _ _
      rfl
    | _ => exact List.prefix_refl _
  | @finish enabled drain stage free visited =>
    exact drained_queued (Client.takeOuts_same client drain.closed).2.2.2.2.1 _ _ _
  | _ => exact List.prefix_refl _

/-- The ticks that were pushed and those that are owed are what the client has queued. -/
structure Kept (s : ClientSocket F) : Prop where
  outbound : s.outbound.Kept
  ticks : s.outbound.frames.pushed.filterMap Frame.carried ++ s.owed = s.client.queued

theorem kept_start : Kept ({} : ClientSocket F) := ⟨Outbound.kept_start, rfl⟩

theorem step_pushed {outbound next : Outbound (Frame F)} {e : OutboundEvent (Frame F)}
    (h : outbound.step e = some next) : next.frames.pushed = outbound.frames.pushed ++
      match e with
      | .push frame => [frame]
      | _ => [] := by
  cases Outbound.steps_of_step h with
  | push free frame => exact DropOldest.push_pushed
  | pop stage free got =>
    obtain ⟨queue, held, rfl⟩ := DropOldest.pop_eq_some.mp got
    exact (List.append_nil _).symm
  | _ => exact (List.append_nil _).symm

theorem Kept.step (kept : Kept s) (h : step setup s e = some t) : Kept t := by
  have ticks := kept.ticks
  cases steps_of_step h with
  | client happens =>
    refine ⟨kept.outbound, ?_⟩
    obtain ⟨more, grown⟩ := step_queued happens
    rw [← List.append_assoc, ticks, ← grown, List.drop_left]
  | enqueue first happens =>
    refine ⟨kept.outbound.step happens, ?_⟩
    rw [first] at ticks
    rw [step_pushed happens, List.filterMap_append, List.append_assoc]
    exact ticks
  | replay happens =>
    refine ⟨kept.outbound.step happens, ?_⟩
    rw [step_pushed happens, List.filterMap_append]
    exact (congrArg (· ++ s.owed) (List.append_nil _)).trans ticks
  | @outbound e outbound other happens =>
    refine ⟨kept.outbound.step happens, ?_⟩
    have same : outbound.frames.pushed = s.outbound.frames.pushed := by
      rw [step_pushed happens]
      cases e <;> first | exact List.append_nil _ | exact (other _ rfl).elim
    rw [same]
    exact ticks

/-- What the socket has taken is among what the client has queued, in the same order. -/
theorem Kept.sentTicks_sublist (kept : Kept s) : s.sentTicks.Sublist s.client.queued := by
  obtain ⟨earlier, split, before, _⟩ := kept.outbound.accounted.split
  rw [kept.outbound.taken] at before
  rw [← kept.ticks, split, List.filterMap_append]
  have sent : s.outbound.sent.Sublist earlier := (List.sublist_append_left _ _).trans before
  exact (sent.filterMap _).trans ((List.sublist_append_left _ _).trans (List.sublist_append_left _ _))

/-- With nothing dropped, owed or waiting, it is all that the client has queued. -/
theorem Kept.sentTicks_eq (kept : Kept s) (whole : s.outbound.frames.dropped = 0) (paid : s.owed = [])
    (asleep : s.outbound.asleep = true) : s.sentTicks = s.client.queued := by
  obtain ⟨empty, _, waiting⟩ := kept.outbound.asleep asleep
  have all := kept.outbound.accounted.pushed_eq_iff.mpr whole
  rw [kept.outbound.taken, Outbound.inHand, waiting, empty, List.append_nil, List.append_nil] at all
  have ticks := kept.ticks
  rw [all, paid, List.append_nil] at ticks
  exact ticks

theorem step_whole (whole : s.outbound.frames.dropped = 0) (room : HasRoom s e) (h : step setup s e = some t) :
    t.outbound.frames.dropped = 0 := by
  cases steps_of_step h with
  | client happens => exact whole
  | enqueue first happens =>
    rw [Outbound.step_dropped happens, if_pos (by exact room)]
    exact whole
  | replay happens =>
    rw [Outbound.step_dropped happens, if_pos (by exact room)]
    exact whole
  | @outbound e outbound other happens =>
    have free : s.outbound.HasRoom e := by
      cases e <;> trivial
    rw [Outbound.step_dropped happens, if_pos free]
    exact whole

theorem step_serves (serves : Client.Serves setup s.client) (undisturbed : Undisturbed setup s e)
    (h : step setup s e = some t) : Client.Serves setup t.client := by
  cases steps_of_step h with
  | client happens => exact serves.step undisturbed happens
  | _ => exact serves

/-- If the client and its drains are undisturbed, the socket takes no tick twice, and the ticks of one topic in the
order of their publishes. If what is queued always finds room, a tick that is due has been sent once the publish has
returned, the receivers are read, the queue is empty and the writer sleeps. -/
theorem ticks_on_socket {events : List (ClientSocketEvent F)}
    (meets : Machine.Meets (step setup) (Undisturbed setup) {} events)
    (reached : Machine.run (step setup) {} events = some s) :
    (s.sentTicks.map fun tick => tick.number).Nodup ∧
      (s.sentTicks.Pairwise fun x y => y.topic = x.topic → y.number ∉ x.earlier) ∧
      (Machine.Meets (step setup) HasRoom {} events → s.owed = [] → s.outbound.asleep = true →
        s.client.fanout.pending = [] → (∀ r ∈ s.client.receivers, s.client.unread r = []) →
        ∀ (i : Nat) (p : Publish F), s.client.publishes[i]? = some p → p.due = true → p.stage.isReturned = true →
          (s.sentTicks.map fun tick => tick.number).count i = 1) := by
  have kept : Kept s := Machine.invariant_run (fun _ _ _ kept h => Kept.step kept h) kept_start reached
  have serves : Client.Serves setup s.client :=
    Machine.invariant_run_of_meets (I := fun s => Client.Serves setup s.client)
      (fun _ _ _ serves undisturbed h => step_serves serves undisturbed h) Client.serves_start meets reached
  have delivered := serves.delivered
  have among := kept.sentTicks_sublist
  refine ⟨delivered.once.sublist (among.map _), delivered.inOrder.sublist among, ?_⟩
  intro room paid asleep collected read i p found due finished
  have whole : s.outbound.frames.dropped = 0 :=
    Machine.invariant_run_of_meets (I := fun s => s.outbound.frames.dropped = 0)
      (fun _ _ _ whole room h => step_whole whole room h) rfl room reached
  rw [kept.sentTicks_eq whole paid asleep]
  exact delivered.queued i p found due finished collected read

/-- A client on one topic; its tick is published, drained, queued and sent. -/
def oneTick : List (ClientSocketEvent Empty) :=
  Client.oneTopic.map .client ++ [.enqueue, .outbound .notifies, .outbound .pop, .outbound (.send true), .outbound .pop,
    .outbound .look, .outbound .enter, .outbound .pop, .outbound .look, .outbound .enter]

theorem ticks_on_socket_trade : ∃ s, Machine.run (step tradesSetup) {} oneTick = some s ∧
    (s.sentTicks.map fun tick => tick.number).count 0 = 1 := by
  obtain ⟨s, reached, p, found, due, finished, paid, asleep, collected, read⟩ : ∃ s,
      Machine.run (step tradesSetup) {} oneTick = some s ∧ ∃ p, s.client.publishes[0]? = some p ∧ p.due = true ∧
        p.stage.isReturned = true ∧ s.owed = [] ∧ s.outbound.asleep = true ∧ s.client.fanout.pending = [] ∧
        ∀ r ∈ s.client.receivers, s.client.unread r = [] :=
    ⟨_, rfl, _, rfl, by decide +kernel, by decide +kernel, rfl, by decide +kernel, rfl, by decide +kernel⟩
  have meets : Machine.Meets (step tradesSetup) (Undisturbed tradesSetup) {} oneTick := by decide +kernel
  have room : Machine.Meets (step tradesSetup) HasRoom {} oneTick := by decide +kernel
  exact ⟨s, reached, (ticks_on_socket meets reached).2.2 room paid asleep collected read 0 p found due finished⟩

end ClientSocket
end QuestRouter.Stream
