import QuestRouter.Data.DropOldest
import QuestRouter.Data.Machine
import QuestRouter.Data.Notify

/-!
# Outbound queue of a connection

The reader and the fan-out task of a connection queue frames for its writer and notify it with the queue locked.
The writer sends one frame after the other; when there is none, it looks whether the connection is shut down and
otherwise waits. The socket task shuts the connection down and then notifies the writer, and waits for it to end.
-/

namespace QuestRouter.Stream
open Data

def outboundCapacity : Nat := 256

inductive WriterStage (W : Type) where
  | popping
  | sending (frame : W)
  /-- The queue was empty. -/
  | looking
  | entering
  | waiting
  /-- The writer has returned, and the frame it could not send. -/
  | ended (failed : Option W)

/-- How many steps the writer has at most before it waits. -/
def WriterStage.ahead {W : Type} : WriterStage W → Nat
  | .popping => 3
  | .sending _ => 4
  | .looking => 2
  | .entering => 1
  | .waiting | .ended _ => 0

/-- How far the socket task is: it waits for the reader or the fan-out task, has stored the flag, or has notified. -/
inductive Closing where
  | serving
  | stored
  | notified
  deriving DecidableEq

structure Outbound (W : Type) where
  frames : DropOldest W := {}
  /-- A frame was queued, and its notification is still to come. -/
  locked : Bool := false
  notify : Notify := {}
  writer : WriterStage W := .popping
  closing : Closing := .serving
  sent : List W := []

inductive OutboundEvent (W : Type) where
  /-- `enqueue_frame`, up to the notification. -/
  | push (frame : W)
  | notifies
  | pop
  | send (ok : Bool)
  | look
  | enter
  | wake
  | store
  | notifyWriter

/-- The steps of the writer itself, where the socket takes what it sends. -/
def OutboundEvent.ofWriter {W : Type} : OutboundEvent W → Bool
  | .pop | .send true | .look | .enter | .wake => true
  | _ => false

namespace Outbound

variable {W : Type}

/-- The frame that the writer took and has not sent, or could not send. -/
def inHand (s : Outbound W) : List W :=
  match s.writer with
  | .sending frame => [frame]
  | .ended (some frame) => [frame]
  | _ => []

def step (s : Outbound W) : OutboundEvent W → Option (Outbound W)
  | .push frame => if s.locked then none else some { s with frames := s.frames.push outboundCapacity frame, locked := true }
  | .notifies => if s.locked then some { s with notify := s.notify.notifyOne, locked := false } else none
  | .pop =>
    match s.writer with
    | .popping =>
      if s.locked then none
      else
        match s.frames.pop with
        | some (frame, frames) => some { s with frames, writer := .sending frame }
        | none => some { s with writer := .looking }
    | _ => none
  | .send ok =>
    match s.writer with
    | .sending frame =>
      some (if ok then { s with writer := .popping, sent := s.sent ++ [frame] }
        else { s with writer := .ended (some frame) })
    | _ => none
  | .look =>
    match s.writer with
    | .looking => some { s with writer := if s.closing = .serving then .entering else .ended none }
    | _ => none
  | .enter =>
    match s.writer with
    | .entering => some { s with notify := s.notify.enter, writer := if s.notify.permit then .popping else .waiting }
    | _ => none
  | .wake =>
    match s.writer with
    | .waiting => s.notify.wake.map fun notify => { s with notify, writer := .popping }
    | _ => none
  | .store => if s.closing = .serving then some { s with closing := .stored } else none
  | .notifyWriter =>
    if s.closing = .stored then some { s with closing := .notified, notify := s.notify.notifyOne } else none

/-- Somebody is about to notify the writer. -/
def notifies (s : Outbound W) : Bool := s.locked || s.closing = .stored

def asleep (s : Outbound W) : Bool := s.notify.asleep && !s.notifies

/-- A frame is pushed where fewer than the capacity are queued. -/
def HasRoom (s : Outbound W) : OutboundEvent W → Prop
  | .push _ => s.frames.queue.length < outboundCapacity
  | _ => True

instance HasRoom.decidable (s : Outbound W) : ∀ e, Decidable (s.HasRoom e)
  | .push _ => inferInstanceAs (Decidable (s.frames.queue.length < outboundCapacity))
  | .notifies | .pop | .send _ | .look | .enter | .wake | .store | .notifyWriter => .isTrue trivial

/-! ### Steps -/

/-- What a step is: the frames change by a push or a pop, and the writer goes from one stage to the next. -/
inductive Steps (s : Outbound W) : OutboundEvent W → Outbound W → Prop
  | push (free : s.locked = false) (frame : W) :
    Steps s (.push frame) { s with frames := s.frames.push outboundCapacity frame, locked := true }
  | notifies (locked : s.locked = true) : Steps s .notifies { s with notify := s.notify.notifyOne, locked := false }
  | pop {frame : W} {frames : DropOldest W} (stage : s.writer = .popping) (free : s.locked = false)
    (got : s.frames.pop = some (frame, frames)) : Steps s .pop { s with frames, writer := .sending frame }
  | empty (stage : s.writer = .popping) (free : s.locked = false) (none : s.frames.queue = []) :
    Steps s .pop { s with writer := .looking }
  | sends {frame : W} (stage : s.writer = .sending frame) :
    Steps s (.send true) { s with writer := .popping, sent := s.sent ++ [frame] }
  | fails {frame : W} (stage : s.writer = .sending frame) : Steps s (.send false) { s with writer := .ended (some frame) }
  | goesOn (stage : s.writer = .looking) (serving : s.closing = .serving) : Steps s .look { s with writer := .entering }
  | ends (stage : s.writer = .looking) (closing : s.closing ≠ .serving) : Steps s .look { s with writer := .ended none }
  | permitted (stage : s.writer = .entering) (permit : s.notify.permit = true) :
    Steps s .enter { s with notify := { s.notify with permit := false }, writer := .popping }
  | sleeps (stage : s.writer = .entering) (permit : s.notify.permit = false) :
    Steps s .enter { s with notify := { s.notify with waiter := some false }, writer := .waiting }
  | wakes (stage : s.writer = .waiting) (notified : s.notify.waiter = some true) :
    Steps s .wake { s with notify := { s.notify with waiter := none }, writer := .popping }
  | store (serving : s.closing = .serving) : Steps s .store { s with closing := .stored }
  | notifyWriter (stored : s.closing = .stored) :
    Steps s .notifyWriter { s with closing := .notified, notify := s.notify.notifyOne }

variable {s t : Outbound W} {e : OutboundEvent W}

theorem steps_of_step (h : step s e = some t) : Steps s e t := by
  cases e with
  | push frame =>
    dsimp only [step] at h
    split at h
    · cases h
    · rename_i free
      cases h
      exact .push (by simpa using free) frame
  | notifies =>
    dsimp only [step] at h
    split at h
    · rename_i locked
      cases h
      exact .notifies locked
    · cases h
  | pop =>
    dsimp only [step] at h
    split at h
    · rename_i stage
      split at h
      · cases h
      · rename_i free
        have unlocked : s.locked = false := by simpa using free
        split at h
        · rename_i frame frames got
          cases h
          exact .pop stage unlocked got
        · rename_i none
          cases h
          exact .empty stage unlocked (DropOldest.pop_eq_none.mp none)
    · cases h
  | send ok =>
    dsimp only [step] at h
    split at h
    · rename_i frame stage
      cases ok <;> cases h
      · exact .fails stage
      · exact .sends stage
    · cases h
  | look =>
    dsimp only [step] at h
    split at h
    · rename_i stage
      split at h <;> cases h
      · rename_i serving
        exact .goesOn stage serving
      · rename_i closing
        exact .ends stage closing
    · cases h
  | enter =>
    dsimp only [step] at h
    split at h
    · rename_i stage
      unfold Notify.enter at h
      split at h <;> cases h
      · rename_i permit
        exact .permitted stage permit
      · rename_i permit
        exact .sleeps stage (by simpa using permit)
    · cases h
  | wake =>
    dsimp only [step] at h
    split at h
    · rename_i stage
      obtain ⟨notify, woken, rfl⟩ := Option.map_eq_some_iff.mp h
      obtain ⟨notified, rfl⟩ := Notify.wake_eq_some.mp woken
      exact .wakes stage notified
    · cases h
  | store =>
    dsimp only [step] at h
    split at h
    · rename_i serving
      cases h
      exact .store serving
    · cases h
  | notifyWriter =>
    dsimp only [step] at h
    split at h
    · rename_i stored
      cases h
      exact .notifyWriter stored
    · cases h

/-! ### What is kept -/

/-- Nothing is lost but what the queue drops, and the writer does not come to sleep with a frame queued or after it
was told that the connection is shut down. -/
structure Kept (s : Outbound W) : Prop where
  accounted : s.frames.Accounted outboundCapacity
  taken : s.frames.popped = s.sent ++ s.inHand
  waits : s.notify.waiter.isSome = true ↔ s.writer = .waiting
  honest : s.notify.Honest
  /-- A writer that has found the queue empty, and that no notification is on its way to. -/
  idle : s.writer = .looking ∨ s.writer = .entering ∨ s.writer = .waiting → s.notify.permit = false →
    s.notify.waiter ≠ some true → s.locked = false → s.frames.queue = []
  told : s.closing = .notified → s.writer = .entering ∨ s.writer = .waiting →
    s.notify.permit = true ∨ s.notify.waiter = some true

theorem kept_start : Kept ({} : Outbound W) where
  accounted := DropOldest.accounted_new
  taken := rfl
  waits := iff_of_false Bool.false_ne_true nofun
  honest := nofun
  idle := nofun
  told := nofun

theorem Kept.notified (kept : Kept s) {locked : Bool} {closing : Closing} :
    Kept { s with notify := s.notify.notifyOne, locked, closing } where
  accounted := kept.accounted
  taken := kept.taken
  waits := by
    rw [Notify.notifyOne_waiter]
    exact kept.waits
  honest := by
    intro sleeps
    rw [Notify.notifyOne_asleep] at sleeps
    cases sleeps
  idle := by
    intro _ permit waiter
    rcases s.notify.notifyOne_left with left | left
    · rw [left] at permit
      cases permit
    · exact (waiter left).elim
  told _ _ := s.notify.notifyOne_left

/-- A writer that is not about to wait. -/
theorem Kept.awake {frames : DropOldest W} {writer : WriterStage W} {sent : List W} {notify : Notify}
    (accounted : frames.Accounted outboundCapacity) (taken : frames.popped = sent ++ inHand { s with writer })
    (waiter : notify.waiter = none)
    (stage : writer ≠ .entering ∧ writer ≠ .waiting) (empty : writer = .looking → frames.queue = []) :
    Kept { s with frames, writer, sent, notify } where
  accounted := accounted
  taken := taken
  waits := by
    dsimp only
    rw [waiter]
    exact iff_of_false Bool.false_ne_true stage.2
  honest := by
    intro sleeps
    dsimp only [Notify.asleep] at sleeps
    rw [waiter] at sleeps
    cases sleeps
  idle := by
    intro found _ _ _
    rcases found with looking | entering | waiting
    · exact empty looking
    · exact (stage.1 entering).elim
    · exact (stage.2 waiting).elim
  told := by
    intro _ found
    rcases found with entering | waiting
    · exact (stage.1 entering).elim
    · exact (stage.2 waiting).elim

/-- What the writer has in hand at a stage. -/
theorem Kept.taken_at {writer : WriterStage W} (kept : Kept s) (stage : s.writer = writer) :
    s.frames.popped = s.sent ++ inHand { s with writer } := by
  subst stage
  exact kept.taken

theorem Kept.waiter_none (kept : Kept s) (stage : s.writer ≠ .waiting) : s.notify.waiter = none := by
  have none : ¬ s.notify.waiter.isSome = true := fun some => stage (kept.waits.mp some)
  simpa using none

theorem Kept.step (kept : Kept s) (h : step s e = some t) : Kept t := by
  cases steps_of_step h with
  | push free frame =>
    exact ⟨kept.accounted.push (by decide) frame, DropOldest.push_popped.trans kept.taken, kept.waits, kept.honest,
      (fun _ _ _ free => nomatch free), kept.told⟩
  | notifies locked => exact kept.notified
  | pop stage free got =>
    obtain ⟨queue, held, rfl⟩ := DropOldest.pop_eq_some.mp got
    have taken := (kept.taken_at stage).trans (List.append_nil _)
    refine .awake (kept.accounted.pop got) ?_ (kept.waiter_none (by rw [stage]; nofun)) ⟨nofun, nofun⟩ nofun
    rw [taken]
    rfl
  | empty stage free none =>
    have taken := kept.taken_at stage
    exact .awake kept.accounted taken (kept.waiter_none (by rw [stage]; nofun)) ⟨nofun, nofun⟩ fun _ => none
  | sends stage =>
    have taken := kept.taken_at stage
    refine .awake kept.accounted ?_ (kept.waiter_none (by rw [stage]; nofun)) ⟨nofun, nofun⟩ nofun
    rw [taken]
    exact (List.append_nil _).symm
  | fails stage =>
    have taken := kept.taken_at stage
    exact .awake kept.accounted taken (kept.waiter_none (by rw [stage]; nofun)) ⟨nofun, nofun⟩ nofun
  | goesOn stage serving =>
    have none := kept.waiter_none (by rw [stage]; nofun)
    have taken := kept.taken_at stage
    refine ⟨kept.accounted, taken, ?_, kept.honest, fun _ => kept.idle (.inl stage), fun told => ?_⟩
    · rw [none]
      exact iff_of_false Bool.false_ne_true nofun
    · rw [serving] at told
      cases told
  | ends stage closing =>
    have taken := kept.taken_at stage
    exact .awake kept.accounted taken (kept.waiter_none (by rw [stage]; nofun)) ⟨nofun, nofun⟩ nofun
  | permitted stage permit =>
    have taken := kept.taken_at stage
    have none := kept.waiter_none (by rw [stage]; nofun)
    exact .awake kept.accounted taken none ⟨nofun, nofun⟩ nofun
  | sleeps stage permit =>
    have none := kept.waiter_none (by rw [stage]; nofun)
    have taken := kept.taken_at stage
    refine ⟨kept.accounted, taken, iff_of_true rfl rfl, fun _ => permit, fun _ _ _ free => ?_, fun told _ => ?_⟩
    · exact kept.idle (.inr (.inl stage)) permit (by rw [none]; nofun) free
    · rcases kept.told told (.inl stage) with given | woken
      · rw [permit] at given
        cases given
      · rw [none] at woken
        cases woken
  | wakes stage notified =>
    have taken := kept.taken_at stage
    exact .awake kept.accounted taken rfl ⟨nofun, nofun⟩ nofun
  | store serving => exact ⟨kept.accounted, kept.taken, kept.waits, kept.honest, kept.idle, nofun⟩
  | notifyWriter stored => exact kept.notified

/-! ### What is lost -/

theorem step_dropped (h : step s e = some t) : t.frames.dropped = s.frames.dropped + if s.HasRoom e then 0 else 1 := by
  cases steps_of_step h with
  | push free frame => exact DropOldest.push_dropped
  | pop stage free got =>
    obtain ⟨queue, held, rfl⟩ := DropOldest.pop_eq_some.mp got
    rw [if_pos (by exact trivial)]
    rfl
  | _ =>
    rw [if_pos (by exact trivial)]
    rfl

/-- Nothing is dropped in a run exactly if every push finds room. -/
theorem run_dropped {events : List (OutboundEvent W)} (reached : Machine.run step s events = some t) :
    s.frames.dropped ≤ t.frames.dropped ∧
      (t.frames.dropped = s.frames.dropped ↔ Machine.Meets step HasRoom s events) := by
  induction events generalizing s with
  | nil =>
    cases reached
    exact ⟨Nat.le_refl _, iff_of_true rfl trivial⟩
  | cons e events ih =>
    obtain ⟨u, first, rest⟩ := Machine.run_cons.mp reached
    obtain ⟨more, all⟩ := ih rest
    have now := step_dropped first
    rw [Machine.meets_cons first, ← all]
    split at now
    · rename_i room
      rw [now]
      exact ⟨by omega, by simp [room]⟩
    · rename_i full
      refine ⟨by omega, iff_of_false (by omega) fun both => full both.1⟩

/-- In every run at most so many frames wait, and the writer takes frames in the order in which they were queued.
None is missing exactly if each found room. -/
theorem frames_in_order {events : List (OutboundEvent W)} (reached : Machine.run step {} events = some s) :
    s.frames.queue.length ≤ outboundCapacity ∧
      (∃ earlier, s.frames.pushed = earlier ++ s.frames.queue ∧ (s.sent ++ s.inHand).Sublist earlier) ∧
      (s.frames.pushed = s.sent ++ s.inHand ++ s.frames.queue ↔ Machine.Meets step HasRoom {} events) := by
  have kept : Kept s := Machine.invariant_run (fun _ _ _ kept h => Kept.step kept h) kept_start reached
  obtain ⟨earlier, split, before, _⟩ := kept.accounted.split
  rw [kept.taken] at before
  have whole := kept.accounted.pushed_eq_iff
  rw [kept.taken] at whole
  exact ⟨kept.accounted.room, ⟨earlier, split, before⟩, whole.trans (run_dropped reached).2⟩

theorem frames_in_order_sent : ∃ s : Outbound Nat, Machine.run step {} [.push 1, .notifies, .pop, .send true] = some s ∧
    s.frames.pushed = s.sent ++ s.inHand ++ s.frames.queue :=
  have reached : Machine.run step {} [OutboundEvent.push 1, .notifies, .pop, .send true] = some _ := rfl
  ⟨_, reached, (frames_in_order reached).2.2.mpr (by decide)⟩

/-! ### What is not slept on -/

/-- A sleeping writer that nobody is about to notify has nothing to send, and the connection is not shut down. -/
theorem Kept.asleep (kept : Kept s) (asleep : s.asleep = true) :
    s.frames.queue = [] ∧ s.closing = .serving ∧ s.writer = .waiting := by
  unfold Outbound.asleep Outbound.notifies at asleep
  rw [Bool.and_eq_true, Bool.not_eq_true', Bool.or_eq_false_iff, decide_eq_false_iff_not] at asleep
  obtain ⟨sleeps, free, stored⟩ := asleep
  have waiter : s.notify.waiter = some false := by simpa [Notify.asleep] using sleeps
  have waiting : s.writer = .waiting := kept.waits.mp (by rw [waiter]; rfl)
  have permit := kept.honest sleeps
  have quiet : s.notify.waiter ≠ some true := by rw [waiter]; nofun
  refine ⟨kept.idle (.inr (.inr waiting)) permit quiet free, ?_, waiting⟩
  cases closing : s.closing with
  | serving => rfl
  | stored => exact (stored closing).elim
  | notified =>
    rcases kept.told closing (.inr waiting) with given | woken
    · rw [permit] at given
      cases given
    · exact (quiet woken).elim

/-- In every run, a writer that sleeps and that nobody is about to notify has nothing to send, and was not told that
the connection is shut down. -/
theorem sleeps_drained {events : List (OutboundEvent W)} (reached : Machine.run step {} events = some s)
    (asleep : s.asleep = true) : s.frames.queue = [] ∧ s.closing = .serving ∧ s.sent = s.frames.popped := by
  have kept : Kept s := Machine.invariant_run (fun _ _ _ kept h => Kept.step kept h) kept_start reached
  obtain ⟨empty, serving, waiting⟩ := kept.asleep asleep
  have taken := kept.taken
  rw [inHand, waiting, List.append_nil] at taken
  exact ⟨empty, serving, taken.symm⟩

/-- The writer has a permit from a frame that it has already sent, and looks once more before it sleeps. -/
theorem sleeps_drained_twice : ∃ s : Outbound Nat, Machine.run step {} [.push 1, .notifies, .pop, .send true, .pop,
    .look, .enter, .pop, .look, .enter] = some s ∧ s.frames.queue = [] ∧ s.closing = .serving ∧ s.sent = s.frames.popped :=
  have reached : Machine.run step {} [OutboundEvent.push 1, .notifies, .pop, .send true, .pop, .look, .enter, .pop,
    .look, .enter] = some _ := rfl
  ⟨_, reached, sleeps_drained reached rfl⟩

/-- How many steps the writer can take by itself. -/
def ahead (s : Outbound W) : Nat :=
  2 * s.frames.queue.length + (if s.notify.permit then 3 else 0) + (if s.notify.waiter = some true then 4 else 0) +
    s.writer.ahead

theorem Kept.ahead_lt (kept : Kept s) (own : e.ofWriter = true) (h : Outbound.step s e = some t) : t.ahead < s.ahead := by
  cases steps_of_step h with
  | push free frame => cases own
  | notifies locked => cases own
  | pop stage free got =>
    obtain ⟨queue, held, rfl⟩ := DropOldest.pop_eq_some.mp got
    simp only [Outbound.ahead, WriterStage.ahead, stage, held, List.length_cons]
    omega
  | empty stage free none =>
    simp only [Outbound.ahead, WriterStage.ahead, stage]
    omega
  | sends stage =>
    simp only [Outbound.ahead, WriterStage.ahead, stage]
    omega
  | fails stage => cases own
  | goesOn stage serving =>
    simp only [Outbound.ahead, WriterStage.ahead, stage]
    omega
  | ends stage closing =>
    simp only [Outbound.ahead, WriterStage.ahead, stage]
    omega
  | permitted stage permit =>
    have none := kept.waiter_none (by rw [stage]; nofun)
    simp [Outbound.ahead, WriterStage.ahead, stage, permit, none]
  | sleeps stage permit =>
    have none := kept.waiter_none (by rw [stage]; nofun)
    simp [Outbound.ahead, WriterStage.ahead, stage, permit, none]
  | wakes stage notified =>
    simp [Outbound.ahead, WriterStage.ahead, stage, notified]
  | store serving => cases own
  | notifyWriter stored => cases own

theorem Kept.ahead_le (kept : Kept s) : s.ahead ≤ 2 * s.frames.queue.length + 7 := by
  unfold Outbound.ahead
  have permits : (if s.notify.permit then 3 else 0) ≤ 3 := by split <;> decide
  by_cases notified : s.notify.waiter = some true
  · rw [kept.waits.mp (by rw [notified]; rfl), if_pos notified]
    show _ + 4 + 0 ≤ _
    omega
  · have stage : s.writer.ahead ≤ 4 := by cases s.writer <;> simp [WriterStage.ahead]
    rw [if_neg notified]
    omega

/-- A writer that has returned was told to, and has not failed. -/
def Works (s : Outbound W) : Prop := ∀ failed, s.writer = .ended failed → failed = none ∧ s.closing ≠ .serving

/-- A writer that has returned has sent all that was queued. One that is about to look at the flag has, or goes on. -/
structure Watches (s : Outbound W) : Prop where
  finished : s.writer = .ended none → s.frames.queue = []
  looks : s.writer = .looking → s.closing = .serving ∨ s.frames.queue = []

/-- What a step of the writer alone leaves. -/
structure Own (s t : Outbound W) : Prop where
  all : t.sent ++ t.inHand ++ t.frames.queue = s.sent ++ s.inHand ++ s.frames.queue
  notifies : t.notifies = s.notifies
  closing : t.closing = s.closing
  works : Works s → Works t
  watches : Watches s → Watches t

theorem Own.refl (s : Outbound W) : Own s s := ⟨rfl, rfl, rfl, id, id⟩

theorem Own.trans {u : Outbound W} (first : Own s u) (later : Own u t) : Own s t where
  all := later.all.trans first.all
  notifies := later.notifies.trans first.notifies
  closing := later.closing.trans first.closing
  works before := later.works (first.works before)
  watches before := later.watches (first.watches before)

theorem own_step (own : e.ofWriter = true) (h : step s e = some t) : Own s t := by
  cases steps_of_step h with
  | push free frame => cases own
  | notifies locked => cases own
  | pop stage free got =>
    obtain ⟨queue, held, rfl⟩ := DropOldest.pop_eq_some.mp got
    exact ⟨by simp [inHand, stage, held], rfl, rfl, fun _ => nofun, fun _ => ⟨nofun, nofun⟩⟩
  | empty stage free none =>
    exact ⟨by simp [inHand, stage], rfl, rfl, fun _ => nofun, fun _ => ⟨nofun, fun _ => .inr none⟩⟩
  | sends stage => exact ⟨by simp [inHand, stage], rfl, rfl, fun _ => nofun, fun _ => ⟨nofun, nofun⟩⟩
  | fails stage => cases own
  | goesOn stage serving => exact ⟨by simp [inHand, stage], rfl, rfl, fun _ => nofun, fun _ => ⟨nofun, nofun⟩⟩
  | ends stage closing =>
    refine ⟨by simp [inHand, stage], rfl, rfl, fun _ failed same => ?_, fun watches => ⟨fun _ => ?_, nofun⟩⟩
    · cases same
      exact ⟨rfl, closing⟩
    · exact (watches.looks stage).resolve_left closing
  | permitted stage permit => exact ⟨by simp [inHand, stage], rfl, rfl, fun _ => nofun, fun _ => ⟨nofun, nofun⟩⟩
  | sleeps stage permit => exact ⟨by simp [inHand, stage], rfl, rfl, fun _ => nofun, fun _ => ⟨nofun, nofun⟩⟩
  | wakes stage notified => exact ⟨by simp [inHand, stage], rfl, rfl, fun _ => nofun, fun _ => ⟨nofun, nofun⟩⟩
  | store serving => cases own
  | notifyWriter stored => cases own

theorem own_run {events : List (OutboundEvent W)} (kept : Kept s) (own : ∀ e ∈ events, e.ofWriter = true)
    (alone : Machine.run step s events = some t) : Kept t ∧ events.length + t.ahead ≤ s.ahead ∧ Own s t := by
  induction events generalizing s with
  | nil =>
    cases alone
    exact ⟨kept, Nat.le_of_eq (Nat.zero_add _), .refl _⟩
  | cons e events ih =>
    obtain ⟨u, first, rest⟩ := Machine.run_cons.mp alone
    have here := own e List.mem_cons_self
    have fewer := kept.ahead_lt here first
    obtain ⟨last, steps, later⟩ := ih (kept.step first) (fun e later => own e (List.mem_cons_of_mem _ later)) rest
    refine ⟨last, ?_, (own_step here first).trans later⟩
    rw [List.length_cons]
    omega

/-- A writer that can do nothing has returned or sleeps. -/
theorem stuck_cases (stuck : ∀ e : OutboundEvent W, e.ofWriter = true → step t e = none) (quiet : t.notifies = false)
    (kept : Kept t) : (∃ failed, t.writer = .ended failed) ∨ t.asleep = true := by
  have free : t.locked = false := by
    unfold Outbound.notifies at quiet
    rw [Bool.or_eq_false_iff] at quiet
    exact quiet.1
  cases stage : t.writer with
  | popping =>
    have pop := stuck .pop rfl
    simp only [step, stage, free] at pop
    cases got : t.frames.pop with
    | none => simp [got] at pop
    | some both => simp [got] at pop
  | sending frame =>
    have send := stuck (.send true) rfl
    simp [step, stage] at send
  | looking =>
    have look := stuck .look rfl
    simp [step, stage] at look
  | entering =>
    have enter := stuck .enter rfl
    simp [step, stage] at enter
  | waiting =>
    right
    have wake := stuck .wake rfl
    simp only [step, stage, Option.map_eq_none_iff] at wake
    obtain ⟨notified, waiter⟩ := Option.isSome_iff_exists.mp (kept.waits.mpr stage)
    cases notified with
    | true =>
      rw [Notify.wake, if_pos waiter] at wake
      cases wake
    | false => simp [asleep, Notify.asleep, waiter, quiet]
  | ended failed => exact .inl ⟨failed, rfl⟩

/-- A writer that is left to itself comes to a stop after at most so many steps. It sleeps then if the connection is
served, and has returned if that is shut down. It has sent all that was queued, unless the connection was shut down
while the writer was about to look at the flag. -/
theorem writer_drains {earlier events : List (OutboundEvent W)} (reached : Machine.run step {} earlier = some s)
    (quiet : s.notifies = false) (runs : ∀ failed, s.writer ≠ .ended failed)
    (alone : Machine.run step s events = some t) (own : ∀ e ∈ events, e.ofWriter = true) :
    events.length ≤ 2 * s.frames.queue.length + 7 ∧
      ((∀ e : OutboundEvent W, e.ofWriter = true → step t e = none) →
        (s.closing = .serving ∧ t.asleep = true ∨ s.closing = .notified ∧ t.writer = .ended none) ∧
        (s.closing = .serving ∨ s.writer ≠ .looking →
          t.frames.queue = [] ∧ t.sent = s.sent ++ s.inHand ++ s.frames.queue)) := by
  have kept : Kept s := Machine.invariant_run (fun _ _ _ kept h => Kept.step kept h) kept_start reached
  obtain ⟨last, steps, leaves⟩ := own_run kept own alone
  have bound := kept.ahead_le
  refine ⟨by omega, fun stuck => ?_⟩
  have works := leaves.works fun failed ended => (runs failed ended).elim
  have all := leaves.all
  rcases stuck_cases stuck (leaves.notifies.trans quiet) last with ⟨failed, ended⟩ | asleep
  · obtain ⟨rfl, told⟩ := works failed ended
    rw [leaves.closing] at told
    refine ⟨.inr ⟨?_, ended⟩, fun waits => ?_⟩
    · unfold Outbound.notifies at quiet
      cases closing : s.closing with
      | serving => exact (told closing).elim
      | stored => simp [closing] at quiet
      | notified => rfl
    · have watches := leaves.watches
        ⟨fun ended => (runs _ ended).elim, fun looks => .inl (waits.resolve_right fun other => other looks)⟩
      have empty := watches.finished ended
      refine ⟨empty, ?_⟩
      rw [inHand, ended, empty, List.append_nil, List.append_nil] at all
      exact all
  · obtain ⟨empty, serving, waiting⟩ := last.asleep asleep
    refine ⟨.inl ⟨leaves.closing.symm.trans serving, asleep⟩, fun _ => ⟨empty, ?_⟩⟩
    rw [inHand, waiting, empty, List.append_nil, List.append_nil] at all
    exact all

def ownSteps : List (OutboundEvent Nat) :=
  [.pop, .send true, .pop, .send true, .pop, .look, .enter, .pop, .look, .enter]

theorem writer_drains_two : ∃ s t : Outbound Nat, Machine.run step {} [.push 1, .notifies, .push 2, .notifies] = some s ∧
    Machine.run step s ownSteps = some t ∧ ownSteps.length ≤ 2 * s.frames.queue.length + 7 :=
  have reached : Machine.run step {} [OutboundEvent.push 1, .notifies, .push 2, .notifies] = some _ := rfl
  have alone : Machine.run step _ ownSteps = some _ := rfl
  ⟨_, _, reached, alone, (writer_drains reached rfl nofun alone (by decide)).1⟩

/-- A frame is queued, and the connection shut down, while the writer is about to look at the flag. -/
example : ∃ s : Outbound Nat,
    Machine.run step {} [.pop, .push 1, .notifies, .store, .notifyWriter, .look] = some s ∧
      s.writer = .ended none ∧ s.sent = [] ∧ s.frames.queue = [1] :=
  ⟨_, rfl, rfl, rfl, rfl⟩

end Outbound
end QuestRouter.Stream
