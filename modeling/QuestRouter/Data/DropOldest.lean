import Mathlib.Data.List.Basic

/-!
# Queues that drop the oldest

A bounded queue that always takes a new element: where it is full, its oldest one is dropped. What was pushed and
what was popped is recorded, and how many were dropped.
-/

namespace QuestRouter.Data
variable {μ : Type}

structure DropOldest (μ : Type) where
  queue : List μ := []
  pushed : List μ := []
  popped : List μ := []
  dropped : Nat := 0

namespace DropOldest

def push (capacity : Nat) (q : DropOldest μ) (x : μ) : DropOldest μ :=
  if capacity ≤ q.queue.length then
    { q with queue := q.queue.tail ++ [x], pushed := q.pushed ++ [x], dropped := q.dropped + 1 }
  else { q with queue := q.queue ++ [x], pushed := q.pushed ++ [x] }

def pop (q : DropOldest μ) : Option (μ × DropOldest μ) :=
  match q.queue with
  | [] => none
  | x :: queue => some (x, { q with queue, popped := q.popped ++ [x] })

/-- What is queued is the end of what was pushed, and what was popped stands before it in its order. -/
structure Accounted (capacity : Nat) (q : DropOldest μ) : Prop where
  room : q.queue.length ≤ capacity
  split : ∃ earlier, q.pushed = earlier ++ q.queue ∧ q.popped.Sublist earlier ∧
    earlier.length = q.popped.length + q.dropped

variable {capacity : Nat} {q next : DropOldest μ} {x : μ}

theorem accounted_new : Accounted capacity ({} : DropOldest μ) := ⟨Nat.zero_le _, [], rfl, List.nil_sublist _, rfl⟩

@[simp] theorem push_pushed : (push capacity q x).pushed = q.pushed ++ [x] := by
  unfold push
  split <;> rfl

@[simp] theorem push_popped : (push capacity q x).popped = q.popped := by
  unfold push
  split <;> rfl

theorem push_dropped : (push capacity q x).dropped = q.dropped + if q.queue.length < capacity then 0 else 1 := by
  unfold push
  split
  · rename_i full
    rw [if_neg (by omega)]
  · rename_i room
    rw [if_pos (by omega)]
    rfl

/-- Only the oldest goes. -/
theorem Accounted.push (accounted : Accounted capacity q) (some : 0 < capacity) (x : μ) :
    Accounted capacity (push capacity q x) := by
  obtain ⟨room, earlier, split, before, count⟩ := accounted
  unfold DropOldest.push
  split
  · rename_i full
    obtain ⟨oldest, rest, held⟩ : ∃ oldest rest, q.queue = oldest :: rest :=
      List.exists_cons_of_length_pos (by omega)
    rw [held, List.length_cons] at room
    refine ⟨?_, earlier ++ [oldest], ?_, before.trans (List.sublist_append_left _ _), ?_⟩
    · simp only [held, List.tail_cons, List.length_append, List.length_singleton]
      exact room
    · simp only [held, List.tail_cons, split, List.append_assoc, List.cons_append, List.nil_append]
    · simp only [List.length_append, List.length_singleton, count]
      omega
  · rename_i free
    refine ⟨?_, earlier, ?_, before, count⟩
    · rw [List.length_append, List.length_singleton]
      omega
    · rw [split, List.append_assoc]

theorem pop_eq_some : pop q = some (x, next) ↔
    ∃ queue, q.queue = x :: queue ∧ next = { q with queue, popped := q.popped ++ [x] } := by
  unfold pop
  split
  · rename_i empty
    rw [empty]
    exact ⟨nofun, fun ⟨_, held, _⟩ => nomatch held⟩
  · rename_i y queue held
    rw [held, Option.some.injEq, Prod.mk.injEq]
    constructor
    · intro ⟨same, taken⟩
      exact ⟨queue, by rw [same], by rw [← taken, same]⟩
    · intro ⟨other, same, taken⟩
      obtain ⟨rfl, rfl⟩ := List.cons.inj same
      exact ⟨rfl, taken.symm⟩

theorem pop_eq_none : pop q = none ↔ q.queue = [] := by
  unfold pop
  split
  · rename_i empty
    exact iff_of_true rfl empty
  · rename_i held
    rw [held]
    exact iff_of_false nofun nofun

theorem Accounted.pop (accounted : Accounted capacity q) (got : DropOldest.pop q = some (x, next)) :
    Accounted capacity next := by
  obtain ⟨room, earlier, split, before, count⟩ := accounted
  obtain ⟨queue, held, rfl⟩ := pop_eq_some.mp got
  rw [held, List.length_cons] at room
  refine ⟨?_, earlier ++ [x], ?_, before.append (List.Sublist.refl [x]), ?_⟩
  · show queue.length ≤ capacity
    omega
  · rw [split, held, List.append_assoc, List.singleton_append]
  · simp only [List.length_append, List.length_singleton, count]
    omega

/-- What was dropped is what is missing. -/
theorem Accounted.pushed_eq_iff (accounted : Accounted capacity q) :
    q.pushed = q.popped ++ q.queue ↔ q.dropped = 0 := by
  obtain ⟨_, earlier, split, before, count⟩ := accounted
  rw [split, List.append_left_inj]
  constructor
  · intro same
    rw [same] at count
    omega
  · intro none
    exact (before.eq_of_length (by omega)).symm

end DropOldest
end QuestRouter.Data
