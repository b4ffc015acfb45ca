import Mathlib.Logic.Basic

/-!
# Wake-up permits

One task waits for notifications that come one at a time. A notification that finds it waiting wakes it, and one
that does not is kept as a permit for its next wait; permits do not add up.
-/

namespace QuestRouter.Data

structure Notify where
  permit : Bool := false
  /-- Where the task waits, whether it has been notified. -/
  waiter : Option Bool := none
  deriving DecidableEq

namespace Notify

def notifyOne (n : Notify) : Notify :=
  match n.waiter with
  | some false => { n with waiter := some true }
  | _ => { n with permit := true }

/-- The task waits, unless a permit is there. -/
def enter (n : Notify) : Notify := if n.permit then { n with permit := false } else { n with waiter := some false }

def wake (n : Notify) : Option Notify := if n.waiter = some true then some { n with waiter := none } else none

def asleep (n : Notify) : Bool := n.waiter = some false

/-- A task that sleeps has not been given a permit. -/
def Honest (n : Notify) : Prop := n.asleep = true → n.permit = false

variable {n m : Notify}

theorem notifyOne_asleep (n : Notify) : n.notifyOne.asleep = false := by
  unfold notifyOne asleep
  split
  · rfl
  · rename_i other
    simpa using other

theorem notifyOne_waiter (n : Notify) : n.notifyOne.waiter.isSome = n.waiter.isSome := by
  unfold notifyOne
  split
  · rename_i waits
    rw [waits]
    rfl
  · rfl

/-- A notification leaves a permit, or a task that is awake. -/
theorem notifyOne_left (n : Notify) : n.notifyOne.permit = true ∨ n.notifyOne.waiter = some true := by
  unfold notifyOne
  split
  · exact .inr rfl
  · exact .inl rfl

theorem wake_eq_some : wake n = some m ↔ n.waiter = some true ∧ m = { n with waiter := none } := by
  unfold wake
  split
  · rename_i notified
    rw [Option.some.injEq]
    exact ⟨fun same => ⟨notified, same.symm⟩, fun both => both.2.symm⟩
  · rename_i other
    exact ⟨nofun, fun both => (other both.1).elim⟩

end Notify
end QuestRouter.Data
