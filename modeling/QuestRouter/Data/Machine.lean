import Mathlib.Algebra.Ring.Nat
import Mathlib.Data.List.Basic
import Mathlib.Data.Option.Basic

/-!
# State machines

A machine takes one event at a time and refuses an event that its state does not admit. Properties are of
all states of a run; an invariant is kept by one step.
-/

namespace QuestRouter.Data.Machine

variable {σ α : Type} (step : σ → α → Option σ)

/-- The state after these events, where each of them is admitted. -/
def run : σ → List α → Option σ
  | s, [] => some s
  | s, a :: as => (step s a).bind fun t => run t as

/-- Every state of the run has the property. -/
def Always (P : σ → Prop) : σ → List α → Prop
  | s, [] => P s
  | s, a :: as => P s ∧ ∀ t ∈ step s a, Always P t as

instance Always.decidable {P : σ → Prop} [∀ s, Decidable (P s)] : ∀ s as, Decidable (Always step P s as)
  | s, [] => inferInstanceAs (Decidable (P s))
  | s, a :: as =>
    match happens : step s a with
    | none => decidable_of_iff (P s) (by
        refine ⟨fun here => ⟨here, fun t reached => ?_⟩, And.left⟩
        rw [happens] at reached
        cases reached)
    | some t =>
      have : Decidable (Always step P t as) := Always.decidable t as
      decidable_of_iff (P s ∧ Always step P t as) (by
        refine ⟨fun ⟨here, later⟩ => ⟨here, fun u reached => ?_⟩, fun ⟨here, later⟩ => ⟨here, later t happens⟩⟩
        rw [happens] at reached
        cases reached
        exact later)

/-- Every admitted event of the run meets the condition in the state it happens in. -/
def Meets (C : σ → α → Prop) : σ → List α → Prop
  | _, [] => True
  | s, a :: as => ∀ t ∈ step s a, C s a ∧ Meets C t as

instance Meets.decidable {C : σ → α → Prop} [∀ s a, Decidable (C s a)] :
    ∀ s as, Decidable (Meets step C s as)
  | _, [] => .isTrue trivial
  | s, a :: as =>
    match happens : step s a with
    | none => .isTrue fun t reached => by rw [happens] at reached; cases reached
    | some t =>
      have : Decidable (Meets step C t as) := Meets.decidable t as
      decidable_of_iff (C s a ∧ Meets step C t as) (by
        constructor
        · intro holds u reached
          rw [happens] at reached
          cases reached
          exact holds
        · intro holds
          exact holds t happens)

variable {step} {I P : σ → Prop} {C : σ → α → Prop} {s t : σ} {a : α} {as : List α}

theorem run_cons : run step s (a :: as) = some t ↔ ∃ u, step s a = some u ∧ run step u as = some t :=
  Option.bind_eq_some_iff

theorem run_concat : run step s (as ++ [a]) = some t ↔ ∃ u, run step s as = some u ∧ step u a = some t := by
  induction as generalizing s with
  | nil => simp [run]
  | cons b as ih =>
    rw [List.cons_append, run_cons]
    constructor
    · rintro ⟨v, first, rest⟩
      obtain ⟨u, reached, last⟩ := ih.mp rest
      exact ⟨u, run_cons.mpr ⟨v, first, reached⟩, last⟩
    · rintro ⟨u, reached, last⟩
      obtain ⟨v, first, rest⟩ := run_cons.mp reached
      exact ⟨v, first, ih.mpr ⟨u, rest, last⟩⟩

theorem run_append {bs : List α} :
    run step s (as ++ bs) = some t ↔ ∃ u, run step s as = some u ∧ run step u bs = some t := by
  induction as generalizing s with
  | nil => exact ⟨fun reached => ⟨s, rfl, reached⟩, fun ⟨_, here, rest⟩ => Option.some.inj here ▸ rest⟩
  | cons a as ih =>
    rw [List.cons_append, run_cons]
    constructor
    · intro ⟨v, first, rest⟩
      obtain ⟨u, reached, last⟩ := ih.mp rest
      exact ⟨u, run_cons.mpr ⟨v, first, reached⟩, last⟩
    · intro ⟨u, reached, last⟩
      obtain ⟨v, first, rest⟩ := run_cons.mp reached
      exact ⟨v, first, ih.mpr ⟨u, rest, last⟩⟩

theorem meets_cons (first : step s a = some t) : Meets step C s (a :: as) ↔ C s a ∧ Meets step C t as := by
  constructor
  · intro meets
    exact meets t first
  · intro both u other
    rw [first] at other
    cases other
    exact both

/-! ### Invariants -/

theorem invariant_run (keeps : ∀ s a t, I s → step s a = some t → I t) (start : I s)
    (reached : run step s as = some t) : I t := by
  induction as generalizing s with
  | nil => cases reached; exact start
  | cons a as ih =>
    obtain ⟨u, first, rest⟩ := run_cons.mp reached
    exact ih (keeps s a u start first) rest

theorem invariant_run_of_meets (keeps : ∀ s a t, I s → C s a → step s a = some t → I t) (start : I s)
    (meets : Meets step C s as) (reached : run step s as = some t) : I t := by
  induction as generalizing s with
  | nil => cases reached; exact start
  | cons a as ih =>
    obtain ⟨u, first, rest⟩ := run_cons.mp reached
    obtain ⟨condition, meets⟩ := meets u first
    exact ih (keeps s a u start condition first) meets rest

theorem Always.first (always : Always step P s as) : P s := by
  cases as with
  | nil => exact always
  | cons a as => exact always.1

theorem Always.imp {Q : σ → Prop} (imp : ∀ s, P s → Q s) (always : Always step P s as) : Always step Q s as := by
  induction as generalizing s with
  | nil => exact imp s always
  | cons a as ih => exact ⟨imp s always.1, fun t reached => ih (always.2 t reached)⟩

/-- A step keeps the invariant where it leads to a good state. -/
theorem always_of_meets (keeps : ∀ s a t, I s → C s a → step s a = some t → P t → I t) (start : I s)
    (meets : Meets step C s as) (always : Always step P s as) : Always step I s as := by
  induction as generalizing s with
  | nil => exact start
  | cons a as ih =>
    refine ⟨start, fun t reached => ?_⟩
    obtain ⟨condition, meets⟩ := meets t reached
    have next := always.2 t reached
    exact ih (keeps s a t start condition reached next.first) meets next

theorem Always.last (always : Always step P s as) (reached : run step s as = some t) : P t := by
  induction as generalizing s with
  | nil => cases reached; exact always
  | cons a as ih =>
    obtain ⟨u, first, rest⟩ := run_cons.mp reached
    exact ih (always.2 u first) rest

/-- Where a step from a good state leads to a good one exactly under a condition, a run has good states
only exactly when its steps meet the condition. -/
theorem always_iff_meets (keeps : ∀ s a t, I s → P s → C s a → step s a = some t → I t ∧ P t)
    (needs : ∀ s a t, I s → P s → step s a = some t → P t → C s a) (start : I s) (good : P s) :
    Always step P s as ↔ Meets step C s as := by
  induction as generalizing s with
  | nil => exact ⟨fun _ => trivial, fun _ => good⟩
  | cons a as ih =>
    constructor
    · intro always t first
      have next : P t := by
        have tail := always.2 t first
        cases as with
        | nil => exact tail
        | cons b bs => exact tail.1
      have condition := needs s a t start good first next
      have kept := keeps s a t start good condition first
      exact ⟨condition, (ih kept.1 kept.2).mp (always.2 t first)⟩
    · intro meets
      refine ⟨good, fun t first => ?_⟩
      obtain ⟨condition, meets⟩ := meets t first
      have kept := keeps s a t start good condition first
      exact (ih kept.1 kept.2).mpr meets

/-! ### A list of parts -/

theorem getElem?_replaced {β : Type} {l : List β} {i : Nat} {a : β} (found : l[i]? = some a) (b : β) (j : Nat) :
    (l.set i b)[j]? = if j = i then some b else l[j]? := by
  obtain ⟨inside, _⟩ := List.getElem?_eq_some_iff.mp found
  split
  · rename_i same
    rw [same, List.getElem?_set_self inside]
  · rename_i different
    rw [List.getElem?_set_ne (Ne.symm different)]

theorem countP_replaced {β : Type} (p : β → Bool) {l : List β} {i : Nat} {a : β} (found : l[i]? = some a)
    (b : β) : (l.set i b).countP p + (p a).toNat = l.countP p + (p b).toNat := by
  obtain ⟨inside, same⟩ := List.getElem?_eq_some_iff.mp found
  have counted : (p a).toNat ≤ l.countP p := by
    cases holds : p a with
    | false => simp
    | true => exact List.countP_pos_iff.mpr ⟨a, List.mem_of_getElem? found, holds⟩
  have bit : ∀ c : Bool, (if c = true then 1 else 0) = c.toNat := by
    intro c
    cases c <;> rfl
  rw [List.countP_set inside, same, bit, bit]
  omega

theorem sum_replaced {β : Type} (f : β → Nat) {l : List β} {i : Nat} {a : β} (found : l[i]? = some a) (b : β) :
    ((l.set i b).map f).sum + f a = (l.map f).sum + f b := by
  induction l generalizing i with
  | nil => cases found
  | cons c l ih =>
    cases i with
    | zero =>
      obtain rfl := Option.some.inj found
      simp only [List.set_cons_zero, List.map_cons, List.sum_cons]
      omega
    | succ i =>
      have rest := ih found
      simp only [List.set_cons_succ, List.map_cons, List.sum_cons]
      omega

end QuestRouter.Data.Machine
