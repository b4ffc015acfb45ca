import Mathlib.Data.List.Basic
import Mathlib.Logic.Function.Basic

/-!
# Broadcast channels

A channel delivers each value to the receivers it has at that moment. A receiver keeps a bounded number of
values unread; when there is no room the oldest is lost, and the receiver is told how many it missed.
-/

namespace QuestRouter.Data.Broadcast

variable {τ : Type}

structure Receiver (τ : Type) where
  channel : Nat
  unread : List τ
  missed : Nat
  deriving DecidableEq

def Receiver.deliver (r : Receiver τ) (capacity : Nat) (t : τ) : Receiver τ :=
  if r.unread.length < capacity then { r with unread := r.unread ++ [t] }
  else { r with unread := (r.unread ++ [t]).tail, missed := r.missed + 1 }

/-- The receivers of all channels, by the order in which they subscribed. -/
structure Bus (τ : Type) where
  receiver : Nat → Option (Receiver τ)
  next : Nat
  bounded : ∀ r, next ≤ r → receiver r = none

inductive Received (τ : Type) where
  | value (t : τ)
  | lagged (n : Nat)
  | empty
  deriving DecidableEq

namespace Bus

def new : Bus τ := ⟨fun _ => none, 0, fun _ _ => rfl⟩

/-- The new receiver is `next`. -/
def subscribe (b : Bus τ) (channel : Nat) : Bus τ where
  receiver := fun r => if r = b.next then some ⟨channel, [], 0⟩ else b.receiver r
  next := b.next + 1
  bounded r above := by
    rw [if_neg (by omega)]
    exact b.bounded r (by omega)

def drop (b : Bus τ) (r : Nat) : Bus τ where
  receiver := fun r' => if r' = r then none else b.receiver r'
  next := b.next
  bounded r' above := by
    split
    · rfl
    · exact b.bounded r' above

def dropAll (b : Bus τ) (rs : List Nat) : Bus τ := rs.foldl drop b

def send (b : Bus τ) (capacity channel : Nat) (t : τ) : Bus τ where
  receiver := fun r => (b.receiver r).map fun rc => if rc.channel = channel then rc.deliver capacity t else rc
  next := b.next
  bounded r above := by rw [b.bounded r above]; rfl

def receiverCount (b : Bus τ) (channel : Nat) : Nat :=
  (List.range b.next).countP fun r => (b.receiver r).any fun rc => rc.channel = channel

/-- The receiver as it is left by this. -/
def update (b : Bus τ) (r : Nat) (rc : Receiver τ) : Bus τ where
  receiver := fun r' => if r' = r then (b.receiver r).map fun _ => rc else b.receiver r'
  next := b.next
  bounded r' above := by
    split
    · rename_i same
      rw [← same, b.bounded r' above]
      rfl
    · exact b.bounded r' above

def tryRecv (b : Bus τ) (r : Nat) : Option (Received τ × Bus τ) :=
  (b.receiver r).map fun rc =>
    if rc.missed = 0 then
      match rc.unread with
      | t :: rest => (.value t, b.update r { rc with unread := rest })
      | [] => (.empty, b)
    else (.lagged rc.missed, b.update r { rc with missed := 0 })

def unread (b : Bus τ) (r : Nat) : List τ := ((b.receiver r).map Receiver.unread).getD []

/-! ### Receivers after an operation -/

theorem subscribe_receiver (b : Bus τ) (channel r : Nat) :
    (b.subscribe channel).receiver r = if r = b.next then some ⟨channel, [], 0⟩ else b.receiver r := rfl

theorem drop_receiver (b : Bus τ) (r r' : Nat) :
    (b.drop r).receiver r' = if r' = r then none else b.receiver r' := rfl

theorem dropAll_receiver (b : Bus τ) (rs : List Nat) (r : Nat) :
    (b.dropAll rs).receiver r = if r ∈ rs then none else b.receiver r := by
  unfold dropAll
  induction rs generalizing b with
  | nil => rfl
  | cons r' rs ih =>
    rw [List.foldl_cons, ih, drop_receiver]
    by_cases here : r = r'
    · simp [here]
    · simp [here]

theorem send_receiver (b : Bus τ) (capacity channel : Nat) (t : τ) (r : Nat) :
    (b.send capacity channel t).receiver r =
      (b.receiver r).map fun rc => if rc.channel = channel then rc.deliver capacity t else rc := rfl

@[simp] theorem unread_subscribe (b : Bus τ) (channel r : Nat) : (b.subscribe channel).unread r = b.unread r := by
  unfold unread
  rw [subscribe_receiver]
  split
  · rename_i new
    rw [new, b.bounded b.next (Nat.le_refl _)]
    rfl
  · rfl

theorem unread_drop (b : Bus τ) (r r' : Nat) : (b.drop r).unread r' = if r' = r then [] else b.unread r' := by
  unfold unread
  rw [drop_receiver]
  split <;> rfl

theorem update_receiver (b : Bus τ) (r : Nat) (rc : Receiver τ) (r' : Nat) :
    (b.update r rc).receiver r' = if r' = r then (b.receiver r).map fun _ => rc else b.receiver r' := rfl

theorem unread_update {b : Bus τ} {r : Nat} {old : Receiver τ} (live : b.receiver r = some old) (rc : Receiver τ)
    (r' : Nat) : (b.update r rc).unread r' = if r' = r then rc.unread else b.unread r' := by
  unfold unread
  rw [update_receiver, live]
  split <;> rfl

theorem unread_of_live {b : Bus τ} {r : Nat} {rc : Receiver τ} (live : b.receiver r = some rc) :
    b.unread r = rc.unread := by
  rw [unread, live]
  rfl

@[simp] theorem subscribe_next (b : Bus τ) (channel : Nat) : (b.subscribe channel).next = b.next + 1 := rfl

@[simp] theorem drop_next (b : Bus τ) (r : Nat) : (b.drop r).next = b.next := rfl

@[simp] theorem send_next (b : Bus τ) (capacity channel : Nat) (t : τ) :
    (b.send capacity channel t).next = b.next := rfl

theorem lt_next {b : Bus τ} {r : Nat} {rc : Receiver τ} (live : b.receiver r = some rc) : r < b.next := by
  by_contra above
  rw [b.bounded r (Nat.le_of_not_lt above)] at live
  cases live

@[simp] theorem deliver_channel (rc : Receiver τ) (capacity : Nat) (t : τ) :
    (rc.deliver capacity t).channel = rc.channel := by
  unfold Receiver.deliver
  split <;> rfl

/-- A value that is delivered is unread or was lost with those that are missed. -/
theorem deliver_ne (rc : Receiver τ) (capacity : Nat) (t : τ) : rc.deliver capacity t ≠ rc := by
  unfold Receiver.deliver
  intro same
  split at same
  · have longer := congrArg (fun rc => rc.unread.length) same
    simp at longer
  · have more := congrArg Receiver.missed same
    simp at more

theorem send_live {b : Bus τ} {r : Nat} {rc : Receiver τ} (live : b.receiver r = some rc)
    (capacity channel : Nat) (t : τ) :
    ∃ rc', (b.send capacity channel t).receiver r = some rc' ∧ rc'.channel = rc.channel := by
  rw [send_receiver, live]
  refine ⟨_, rfl, ?_⟩
  dsimp only
  split
  · exact deliver_channel ..
  · rfl

theorem live_of_send {b : Bus τ} {capacity channel r : Nat} {t : τ} {rc : Receiver τ}
    (live : (b.send capacity channel t).receiver r = some rc) :
    ∃ rc', b.receiver r = some rc' ∧ rc.channel = rc'.channel := by
  rw [send_receiver, Option.map_eq_some_iff] at live
  obtain ⟨rc', was, rfl⟩ := live
  refine ⟨rc', was, ?_⟩
  split
  · exact deliver_channel ..
  · rfl

/-- With room for the value nothing is missed. -/
theorem deliver_of_room {rc : Receiver τ} {capacity : Nat} (room : rc.unread.length < capacity) (t : τ) :
    rc.deliver capacity t = { rc with unread := rc.unread ++ [t] } := if_pos room

theorem send_roomy {b : Bus τ} {r capacity channel : Nat} {rc : Receiver τ} (live : b.receiver r = some rc)
    (room : rc.channel = channel → rc.unread.length < capacity) (kept : rc.missed = 0) (t : τ) :
    ∃ rc', (b.send capacity channel t).receiver r = some rc' ∧ rc'.missed = 0 ∧ rc'.channel = rc.channel := by
  rw [send_receiver, live]
  refine ⟨_, rfl, ?_⟩
  dsimp only
  split
  · rename_i on
    rw [deliver_of_room (room on)]
    exact ⟨kept, rfl⟩
  · exact ⟨kept, rfl⟩

theorem deliver_mem (rc : Receiver τ) {capacity : Nat} (room : 0 < capacity) (t : τ) :
    t ∈ (rc.deliver capacity t).unread := by
  unfold Receiver.deliver
  split
  · simp
  · rename_i full
    cases unread : rc.unread with
    | nil =>
      rw [unread] at full
      exact (full room).elim
    | cons u us => simp

theorem receiverCount_pos {b : Bus τ} {channel : Nat} :
    0 < b.receiverCount channel ↔ ∃ r rc, b.receiver r = some rc ∧ rc.channel = channel := by
  rw [receiverCount, List.countP_pos_iff]
  constructor
  · rintro ⟨r, _, counted⟩
    obtain ⟨rc, live, on⟩ := (Option.any_eq_true _ _).mp counted
    exact ⟨r, rc, live, of_decide_eq_true on⟩
  · rintro ⟨r, rc, live, on⟩
    exact ⟨r, List.mem_range.mpr (lt_next live), by rw [live]; simpa using on⟩

theorem receiverCount_eq_zero {b : Bus τ} {channel : Nat} :
    b.receiverCount channel = 0 ↔ ∀ r rc, b.receiver r = some rc → rc.channel ≠ channel := by
  constructor
  · intro none r rc live on
    exact absurd (receiverCount_pos.mpr ⟨r, rc, live, on⟩) (by omega)
  · intro nobody
    by_contra some
    obtain ⟨r, rc, live, on⟩ := receiverCount_pos.mp (Nat.pos_of_ne_zero some)
    exact nobody r rc live on

end Bus
end QuestRouter.Data.Broadcast
