import Mathlib.Logic.Basic
import QuestRouter.Text.Str

/-!
# Values and three-valued logic

SQL values, their equality, and the Kleene connectives. `none` is the truth value unknown. Values
of different types do not compare: a statement that tries is rejected, so the comparison is
never true.
-/

namespace QuestRouter.Sql
open Text

abbrev Truth := Option Bool

namespace Truth

def and : Truth → Truth → Truth
  | some false, _ => some false
  | _, some false => some false
  | some true, some true => some true
  | _, _ => none

def or : Truth → Truth → Truth
  | some true, _ => some true
  | _, some true => some true
  | some false, some false => some false
  | _, _ => none

def not : Truth → Truth
  | some b => some (!b)
  | none => none

@[simp] theorem and_eq_true {a b : Truth} : a.and b = some true ↔ a = some true ∧ b = some true := by
  rcases a with _ | _ | _ <;> rcases b with _ | _ | _ <;> simp [and]

@[simp] theorem or_eq_true {a b : Truth} : a.or b = some true ↔ a = some true ∨ b = some true := by
  rcases a with _ | _ | _ <;> rcases b with _ | _ | _ <;> simp [or]

@[simp] theorem not_eq_true {a : Truth} : a.not = some true ↔ a = some false := by
  rcases a with _ | _ | _ <;> simp [not]

end Truth

/-- An SQL value. Numbers are values of any type `N` that a numeral denotes. -/
inductive Val (N : Type) where
  | null
  | text (s : Str)
  | number (n : N)
  | boolean (b : Bool)
  deriving DecidableEq, Repr

namespace Val
variable {N : Type}

def ofTruth : Truth → Val N
  | some b => .boolean b
  | none => .null

def truth : Val N → Truth
  | .boolean b => some b
  | _ => none

@[simp] theorem truth_ofTruth (t : Truth) : (ofTruth t : Val N).truth = t := by
  rcases t with _ | _ <;> rfl

/-- The comparison `v = w`. -/
def equal [DecidableEq N] : Val N → Val N → Truth
  | .text s, .text t => some (decide (s = t))
  | .number m, .number n => some (decide (m = n))
  | .boolean a, .boolean b => some (decide (a = b))
  | _, _ => none

theorem equal_eq_true [DecidableEq N] {v w : Val N} : v.equal w = some true ↔ v = w ∧ v ≠ .null := by
  cases v <;> cases w <;> simp [equal]

/-- `v` is the value that the text `k` denotes at the type of `v`. -/
def EqualsText (numeral : Str → N) (v : Val N) (k : Str) : Prop :=
  match v with
  | .text s => s = k
  | .number n => numeral k = n
  | .boolean b => k = (if b then "true" else "false").toList
  | .null => False

instance [DecidableEq N] (numeral : Str → N) (v : Val N) (k : Str) : Decidable (v.EqualsText numeral k) := by
  cases v <;> unfold EqualsText <;> infer_instance

end Val
end QuestRouter.Sql
