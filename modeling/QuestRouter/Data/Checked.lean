import Mathlib.Data.List.Basic

/-!
# Checked loops

A loop whose step may fail stops at the first step that does. What it had accumulated before is what the steps
before it give.
-/

namespace QuestRouter.Data

variable {ε σ α : Type} {f : σ → α → Except ε σ} {s : σ} {xs : List α}

theorem foldlM_cons_ok {x : α} {t u : σ} (step : f s x = .ok t) :
    (x :: xs).foldlM f s = .ok u ↔ xs.foldlM f t = .ok u := by
  rw [List.foldlM_cons, step]
  rfl

theorem foldlM_concat {x : α} : (xs ++ [x]).foldlM f s = (xs.foldlM f s).bind fun t => f t x := by
  rw [List.foldlM_append]
  congr 1
  funext t
  rw [List.foldlM_cons]
  cases f t x <;> rfl

theorem foldlM_concat_ok {x : α} {u : σ} :
    (xs ++ [x]).foldlM f s = .ok u ↔ ∃ t, xs.foldlM f s = .ok t ∧ f t x = .ok u := by
  rw [foldlM_concat]
  cases xs.foldlM f s with
  | error e => simp [Except.bind]
  | ok t => simp [Except.bind]

/-- The loop fails with what its first failing step fails with. -/
theorem foldlM_error_iff {e : ε} : xs.foldlM f s = .error e ↔
    ∃ before x after t, xs = before ++ x :: after ∧ before.foldlM f s = .ok t ∧ f t x = .error e := by
  induction xs generalizing s with
  | nil =>
    constructor
    · nofun
    · rintro ⟨before, x, after, _, split, _⟩
      cases before <;> cases split
  | cons x xs ih =>
    cases step : f s x with
    | error failed =>
      have whole : (x :: xs).foldlM f s = .error failed := by
        rw [List.foldlM_cons, step]
        rfl
      rw [whole]
      constructor
      · intro same
        cases same
        exact ⟨[], x, xs, s, rfl, rfl, step⟩
      · rintro ⟨before, y, after, t, split, passed, fails⟩
        cases before with
        | nil =>
          cases split
          cases passed
          exact step.symm.trans fails
        | cons first before =>
          cases split
          rw [List.foldlM_cons, step] at passed
          cases passed
    | ok next =>
      have whole : (x :: xs).foldlM f s = xs.foldlM f next := by
        rw [List.foldlM_cons, step]
        rfl
      rw [whole, ih]
      constructor
      · rintro ⟨before, y, after, t, rfl, passed, fails⟩
        exact ⟨x :: before, y, after, t, rfl, (foldlM_cons_ok step).mpr passed, fails⟩
      · rintro ⟨before, y, after, t, split, passed, fails⟩
        cases before with
        | nil =>
          cases split
          cases passed
          cases step.symm.trans fails
        | cons first before =>
          cases split
          exact ⟨before, y, after, t, rfl, (foldlM_cons_ok step).mp passed, fails⟩

theorem mapM_forall₂ {ε α β : Type} {f : α → Except ε β} {xs : List α} {ys : List β} (h : xs.mapM f = .ok ys) :
    List.Forall₂ (fun x y => f x = .ok y) xs ys := by
  induction xs generalizing ys with
  | nil =>
    cases h
    exact .nil
  | cons x xs ih =>
    rw [List.mapM_cons] at h
    cases first : f x with
    | error e =>
      rw [first] at h
      cases h
    | ok y =>
      cases rest : xs.mapM f with
      | error e =>
        rw [first, rest] at h
        cases h
      | ok ys =>
        rw [first, rest] at h
        cases h
        exact .cons first (ih rest)

theorem forall_right_iff {α β : Type} {R : α → β → Prop} {P : β → Prop} {Q : α → Prop} {xs : List α}
    {ys : List β} (each : List.Forall₂ R xs ys) (agree : ∀ {x y}, R x y → (P y ↔ Q x)) :
    (∀ y ∈ ys, P y) ↔ ∀ x ∈ xs, Q x := by
  induction each with
  | nil => simp
  | cons here _ ih => rw [List.forall_mem_cons, List.forall_mem_cons, agree here, ih]

end QuestRouter.Data
