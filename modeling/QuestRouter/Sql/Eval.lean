import QuestRouter.Sql.Ast
import QuestRouter.Sql.Truth

/-!
# Evaluating a condition

The value of an expression on a row with bound parameters. Equality, the connectives, names and
literals are read as SQL reads them. Every other node has a value that the environment chooses,
so a result holds whatever those nodes mean.
-/

namespace QuestRouter.Sql
open Text

/-- The 1-based number that a placeholder such as `$2` or `:2` carries. -/
def placeholderNumber (p : Str) : Option Nat := parseUsize (p.dropWhile fun c => c == '$' || c == ':')

/-- What an expression is evaluated in: a row, whose columns are found by name ignoring ASCII case,
the values bound to parameters 1, 2, ... and a meaning for the nodes not read here. -/
structure Env (N : Type) where
  numeral : Str → N
  column : Str → Val N
  bound : Nat → Val N
  rest : Expr → Val N
  column_congr : ∀ {x y}, eqIgnoreAsciiCase x y = true → column x = column y

namespace Env
variable {N : Type} [DecidableEq N] (env : Env N)

def literal : Value → Val N
  | .number text => .number (env.numeral text)
  | .singleQuotedString s => .text s
  | .doubleQuotedString s => .text s
  | .escapedStringLiteral s => .text s
  | .boolean b => .boolean b
  | .null => .null
  | .placeholder p =>
    match placeholderNumber p with
    | some (i + 1) => env.bound i
    | _ => env.rest (.value (.placeholder p))
  | .other text => env.rest (.value (.other text))

def eval : Expr → Val N
  | .identifier x => env.column x
  | .compoundIdentifier parts =>
    match parts.getLast? with
    | some x => env.column x
    | none => .null
  | .value v => env.literal v
  | .binaryOp l op r =>
    match op with
    | .eq => .ofTruth ((eval l).equal (eval r))
    | .and => .ofTruth ((eval l).truth.and (eval r).truth)
    | .or => .ofTruth ((eval l).truth.or (eval r).truth)
    | .other symbol => env.rest (.binaryOp l (.other symbol) r)
  | .not e => .ofTruth (eval e).truth.not
  | .nested e => eval e
  | .isNull e => .boolean (eval e = .null)
  | e => env.rest e

def Holds (e : Expr) : Prop := (env.eval e).truth = some true

instance (e : Expr) : Decidable (env.Holds e) := by unfold Holds; infer_instance

theorem holds_and {l r : Expr} : env.Holds (.binaryOp l .and r) ↔ env.Holds l ∧ env.Holds r := by
  simp [Holds, eval]

theorem holds_eq {l r : Expr} :
    env.Holds (.binaryOp l .eq r) ↔ env.eval l = env.eval r ∧ env.eval l ≠ .null := by
  simp [Holds, eval, Val.equal_eq_true]

end Env

/-- The operands of the outermost conjunctions, left to right. -/
def Expr.conjuncts : Expr → List Expr
  | .binaryOp l .and r => l.conjuncts ++ r.conjuncts
  | e => [e]

theorem Env.holds_conjunct {N : Type} [DecidableEq N] (env : Env N) {e conj : Expr} (h : env.Holds e)
    (member : conj ∈ e.conjuncts) : env.Holds conj := by
  fun_induction Expr.conjuncts e with
  | case1 l r left right =>
    obtain ⟨hl, hr⟩ := env.holds_and.mp h
    rcases List.mem_append.mp member with inside | inside
    · exact left hl inside
    · exact right hr inside
  | case2 e _ =>
    obtain rfl := List.mem_singleton.mp member
    exact h

end QuestRouter.Sql
