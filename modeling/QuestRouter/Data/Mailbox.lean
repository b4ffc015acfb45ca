import Mathlib.Data.List.Basic

/-!
# Bounded mailboxes

A mailbox takes messages while it has room. Its receiver takes them out in their order, works on one at a time, and
takes the next when it is done, so the message in hand takes up no room. What is done with is recorded, so that
nothing that was taken in is lost or worked on twice.
-/

namespace QuestRouter.Data
variable {μ : Type}

structure Mailbox (μ : Type) where
  queue : List μ := []
  /-- The message that the receiver works on. -/
  hand : Option μ := none
  done : List μ := []

namespace Mailbox

/-- All messages that were taken in. -/
def accepted (box : Mailbox μ) : List μ := box.done ++ (box.hand.toList ++ box.queue)

def trySend (capacity : Nat) (box : Mailbox μ) (message : μ) : Option (Mailbox μ) :=
  if box.queue.length < capacity then some { box with queue := box.queue ++ [message] } else none

def recv (box : Mailbox μ) : Option (Mailbox μ) :=
  match box.hand, box.queue with
  | none, message :: queue => some { box with queue, hand := some message }
  | _, _ => none

def finish (box : Mailbox μ) : Option (μ × Mailbox μ) :=
  box.hand.map fun message => (message, { box with hand := none, done := box.done ++ [message] })

variable {box next : Mailbox μ} {message : μ} {capacity : Nat}

theorem trySend_eq_some : trySend capacity box message = some next ↔
    box.queue.length < capacity ∧ next = { box with queue := box.queue ++ [message] } := by
  unfold trySend
  split
  · rename_i room
    rw [Option.some.injEq]
    exact ⟨fun same => ⟨room, same.symm⟩, fun same => same.2.symm⟩
  · rename_i full
    exact ⟨nofun, fun both => (full both.1).elim⟩

theorem trySend_accepted (sent : trySend capacity box message = some next) :
    next.accepted = box.accepted ++ [message] ∧ next.done = box.done ∧ next.queue.length ≤ capacity := by
  obtain ⟨room, rfl⟩ := trySend_eq_some.mp sent
  refine ⟨by simp [accepted], rfl, ?_⟩
  show (box.queue ++ [message]).length ≤ capacity
  rw [List.length_append, List.length_singleton]
  omega

/-- The receiver takes the oldest message. -/
theorem recv_accepted (got : recv box = some next) :
    next.accepted = box.accepted ∧ next.done = box.done ∧ next.queue.length < box.queue.length := by
  unfold recv at got
  split at got
  · rename_i first queue free held
    obtain rfl := Option.some.inj got
    refine ⟨by simp [accepted, free, held], rfl, ?_⟩
    rw [held, List.length_cons]
    exact Nat.lt_succ_self _
  · cases got

theorem finish_accepted (finished : finish box = some (message, next)) :
    next.accepted = box.accepted ∧ next.done = box.done ++ [message] ∧ next.queue = box.queue := by
  obtain ⟨last, held, same⟩ := Option.map_eq_some_iff.mp finished
  obtain ⟨rfl, rfl⟩ := Prod.mk.inj same
  exact ⟨by simp [accepted, held], rfl, rfl⟩

end Mailbox
end QuestRouter.Data
