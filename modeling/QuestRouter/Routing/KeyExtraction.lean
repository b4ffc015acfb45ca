import QuestRouter.Routing.Sql
import QuestRouter.Sql.Eval

/-!
# Soundness of key extraction

The key is taken from the first outermost conjunct that compares the key column with an operand
from which a key can be read. A condition that is true makes that column equal to the operand, so
the key is right exactly when it is the operand's value. For a literal or a parameter it is. For
a column name it is the name.
-/

namespace QuestRouter.Routing
open Text Sql

variable {N : Type} [DecidableEq N]

/-! ### The conjunct a key comes from -/

def comparedWith (column : Str) : Expr → Option Expr
  | .binaryOp left .eq right =>
    if columnMatches left column then some right
    else if columnMatches right column then some left
    else none
  | _ => none

def givesKey : Expr → Bool
  | .value (.placeholder p) => (placeholderIndex p).isSome
  | .value v => (valueToString v).isSome
  | .identifier _ => true
  | _ => false

/-- The operand that the key of a condition is read from. -/
def keyOperand (e : Expr) (column : Str) : Option Expr :=
  e.conjuncts.findSome? fun conj => (comparedWith column conj).filter givesKey

theorem shardKeyFromExpr_found (e : Expr) : (shardKeyFromExpr e).found = givesKey e := by
  cases e with
  | value v => cases v <;> simp [shardKeyFromExpr, ShardKeyMatch.found, givesKey]
  | _ => simp [shardKeyFromExpr, ShardKeyMatch.found, givesKey]

theorem not_found {m : ShardKeyMatch} (h : m.found = false) : m = {} := by
  obtain ⟨literal, index⟩ := m
  simp [ShardKeyMatch.found] at h
  simp [h]

theorem getD_filter_givesKey (operand : Expr) :
    (((some operand).filter givesKey).map shardKeyFromExpr).getD {} = shardKeyFromExpr operand := by
  by_cases gives : givesKey operand = true
  · simp [Option.filter, gives]
  · have missing : (shardKeyFromExpr operand).found = false := by
      rw [shardKeyFromExpr_found]
      simpa using gives
    simp [Option.filter, gives, not_found missing]

theorem keyOperand_conjunct {e : Expr} (column : Str) (single : e.conjuncts = [e]) :
    keyOperand e column = (comparedWith column e).filter givesKey := by
  rw [keyOperand, single, List.findSome?_singleton]

theorem keyOperand_and (left right : Expr) (column : Str) :
    keyOperand (.binaryOp left .and right) column =
      (keyOperand left column).or (keyOperand right column) := List.findSome?_append ..

theorem keyOperand_givesKey {e operand : Expr} {column : Str} (h : keyOperand e column = some operand) :
    ∃ conj ∈ e.conjuncts, comparedWith column conj = some operand ∧ givesKey operand = true := by
  obtain ⟨conj, member, found⟩ := List.exists_of_findSome?_eq_some h
  exact ⟨conj, member, Option.filter_eq_some_iff.mp found⟩

/-- The recursion over the condition is a search over its conjuncts. -/
theorem shardKeyFromWhere_eq (e : Expr) (column : Str) :
    shardKeyFromWhere e column = ((keyOperand e column).map shardKeyFromExpr).getD {} := by
  fun_induction shardKeyFromWhere e column with
  | case1 left right matched =>
    rw [keyOperand_conjunct column rfl, comparedWith, if_pos matched, getD_filter_givesKey]
  | case2 left right unmatched matched =>
    rw [keyOperand_conjunct column rfl, comparedWith, if_neg unmatched, if_pos matched,
      getD_filter_givesKey]
  | case3 left right unmatched unmatched' =>
    rw [keyOperand_conjunct column rfl, comparedWith, if_neg unmatched, if_neg unmatched']
    rfl
  | case4 left right leftMatch found ih =>
    rw [keyOperand_and]
    cases operand : keyOperand left column with
    | none => simp [leftMatch, ih, operand, ShardKeyMatch.found] at found
    | some operand' => simpa [operand] using ih
  | case5 left right leftMatch missing left_ih right_ih =>
    rw [keyOperand_and, right_ih]
    cases operand : keyOperand left column with
    | none => rfl
    | some operand' =>
      obtain ⟨_, _, _, gives⟩ := keyOperand_givesKey operand
      have found : leftMatch.found = true := by
        simp only [leftMatch, left_ih, operand, Option.map_some, Option.getD_some]
        rw [shardKeyFromExpr_found, gives]
      exact (missing found).elim
  | case6 e notEq notAnd =>
    have single : e.conjuncts = [e] := Expr.conjuncts.eq_2 e fun l r same => notAnd l r same
    have nothing : comparedWith column e = none := comparedWith.eq_2 column e fun l r same => notEq l r same
    rw [keyOperand_conjunct column single, nothing]
    rfl

/-! ### What a true condition says of the column -/

theorem eval_columnMatches (env : Env N) {e : Expr} {column : Str} (h : columnMatches e column = true) :
    env.eval e = env.column column := by
  cases e with
  | identifier x =>
    simp only [columnMatches, eqIgnoreAsciiCase_lower_right] at h
    exact env.column_congr h
  | compoundIdentifier parts =>
    simp only [columnMatches] at h
    cases last : parts.getLast? with
    | none => simp [last] at h
    | some x =>
      simp only [last, eqIgnoreAsciiCase_lower_right] at h
      simp only [Env.eval, last]
      exact env.column_congr h
  | _ => simp [columnMatches] at h

theorem holds_comparedWith (env : Env N) {conj operand : Expr} {column : Str}
    (h : comparedWith column conj = some operand) (holds : env.Holds conj) :
    env.column column = env.eval operand ∧ env.eval operand ≠ .null := by
  revert h
  fun_cases comparedWith column conj with
  | case1 left right matched =>
    rintro ⟨⟩
    obtain ⟨same, present⟩ := env.holds_eq.mp holds
    rw [eval_columnMatches env matched] at same present
    exact ⟨same, same ▸ present⟩
  | case2 left right _ matched =>
    rintro ⟨⟩
    obtain ⟨same, present⟩ := env.holds_eq.mp holds
    rw [eval_columnMatches env matched] at same
    exact ⟨same.symm, present⟩
  | case3 => exact nofun
  | case4 => exact nofun

/-- A true condition makes the key column equal to the operand the key is read from. -/
theorem holds_keyOperand (env : Env N) {e operand : Expr} {column : Str}
    (h : keyOperand e column = some operand) (holds : env.Holds e) :
    env.column column = env.eval operand ∧ env.eval operand ≠ .null := by
  obtain ⟨conj, member, compared, _⟩ := keyOperand_givesKey h
  exact holds_comparedWith env compared (env.holds_conjunct holds member)

/-! ### What a key says of its operand -/

theorem placeholderNumber_of_index {p : Str} {i : Nat} (h : placeholderIndex p = some i) :
    placeholderNumber p = some (i + 1) := by
  unfold placeholderIndex at h
  obtain ⟨n, number, found⟩ := Option.bind_eq_some_iff.mp h
  cases n with
  | zero => cases found
  | succ n =>
    obtain rfl := Option.some.inj found
    exact number

omit [DecidableEq N] in
theorem literal_of_valueToString (env : Env N) {v : Value} {k : Str} (h : valueToString v = some k) :
    (env.literal v).EqualsText env.numeral k := by
  cases v <;> simp_all [valueToString, Env.literal, Val.EqualsText]

theorem shardKeyFromExpr_literal {operand : Expr} {k : Str} (h : (shardKeyFromExpr operand).literal = some k) :
    (∃ v, operand = .value v ∧ valueToString v = some k) ∨ operand = .identifier k := by
  cases operand with
  | value v => cases v <;> simp_all [shardKeyFromExpr, valueToString]
  | identifier x => simp_all [shardKeyFromExpr]
  | _ => simp [shardKeyFromExpr] at h

theorem shardKeyFromExpr_param {operand : Expr} {i : Nat} (h : (shardKeyFromExpr operand).paramIndex = some i) :
    ∃ p, operand = .value (.placeholder p) ∧ placeholderIndex p = some i := by
  cases operand with
  | value v => cases v <;> simp_all [shardKeyFromExpr]
  | _ => simp [shardKeyFromExpr] at h

theorem shardKeyFromWhere_literal {e : Expr} {column k : Str}
    (h : (shardKeyFromWhere e column).literal = some k) :
    ∃ operand, keyOperand e column = some operand ∧ (shardKeyFromExpr operand).literal = some k := by
  rw [shardKeyFromWhere_eq] at h
  cases operand : keyOperand e column with
  | none => simp [operand] at h
  | some operand' => exact ⟨operand', rfl, by simpa [operand] using h⟩

theorem shardKeyFromWhere_param {e : Expr} {column : Str} {i : Nat}
    (h : (shardKeyFromWhere e column).paramIndex = some i) :
    ∃ operand, keyOperand e column = some operand ∧ (shardKeyFromExpr operand).paramIndex = some i := by
  rw [shardKeyFromWhere_eq] at h
  cases operand : keyOperand e column with
  | none => simp [operand] at h
  | some operand' => exact ⟨operand', rfl, by simpa [operand] using h⟩

/-! ### Soundness -/

/-- On this row and binding, a literal key is the value of the column if the condition is true, and
a parameter key is the index of a parameter bound to that value. -/
structure KeySound (env : Env N) (e : Expr) (column : Str) : Prop where
  literal : ∀ k, (shardKeyFromWhere e column).literal = some k → env.Holds e →
    (env.column column).EqualsText env.numeral k
  param : ∀ i, (shardKeyFromWhere e column).paramIndex = some i → env.Holds e →
    env.column column = env.bound i ∧ env.bound i ≠ .null

/-- If the key is read from a column name, then on a row that satisfies the condition that column
holds its own name. -/
def NameHoldsItself (env : Env N) (e : Expr) (column : Str) : Prop :=
  ∀ x, keyOperand e column = some (.identifier x) → env.Holds e →
    (env.column x).EqualsText env.numeral x

theorem shardKeyFromWhere_sound_iff (env : Env N) (e : Expr) (column : Str) :
    KeySound env e column ↔ NameHoldsItself env e column := by
  constructor
  · intro sound x operand holds
    have key : (shardKeyFromWhere e column).literal = some x := by
      rw [shardKeyFromWhere_eq, operand]
      rfl
    have equals := sound.literal x key holds
    rwa [(holds_keyOperand env operand holds).1] at equals
  · intro itself
    refine ⟨fun k key holds => ?_, fun i key holds => ?_⟩
    · obtain ⟨operand, found, literal⟩ := shardKeyFromWhere_literal key
      rw [(holds_keyOperand env found holds).1]
      rcases shardKeyFromExpr_literal literal with ⟨v, rfl, text⟩ | rfl
      · exact literal_of_valueToString env text
      · exact itself k found holds
    · obtain ⟨operand, found, param⟩ := shardKeyFromWhere_param key
      obtain ⟨p, rfl, index⟩ := shardKeyFromExpr_param param
      have value : env.eval (.value (.placeholder p)) = env.bound i := by
        simp [Env.eval, Env.literal, placeholderNumber_of_index index]
      rw [← value]
      exact holds_keyOperand env found holds

/-- A row whose two columns hold the same text, neither of them a column name. -/
def venueRow : Env Nat where
  numeral _ := 0
  column _ := .text "A".toList
  bound _ := .null
  rest _ := .null
  column_congr _ := rfl

/-- `symbol = venue` gives the key `venue`. -/
theorem column_comparison_unsound :
    ¬ KeySound venueRow (.binaryOp (.identifier "symbol".toList) .eq (.identifier "venue".toList))
      "symbol".toList := by
  intro sound
  have equals := sound.literal "venue".toList (by decide) (by decide)
  exact absurd equals (by decide)

end QuestRouter.Routing
