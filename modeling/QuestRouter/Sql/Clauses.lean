import QuestRouter.Sql.Lexer
import QuestRouter.Sql.Truth

/-!
# Clauses of a statement

The condition of a statement as SQL reads it from the tokens: its `WHERE` outside all parentheses,
up to the next clause, with `OR` weaker than `AND` and `AND` weaker than `NOT`. A comparison of a column
with a literal or a placeholder is read; every other predicate has the truth value the row gives it.
-/

namespace QuestRouter.Sql
open Text

def isWord (word : String) : Token → Bool
  | .word text => eqIgnoreAsciiCase text word.toList
  | _ => false

/-! ### Nesting -/

/-- The nesting depth after a token. `CASE` and `END` nest as parentheses do. -/
def depthAfter (d : Nat) (t : Token) : Nat :=
  if t = .symbol '(' ∨ isWord "CASE" t then d + 1
  else if t = .symbol ')' ∨ isWord "END" t then d - 1
  else d

def depth (d : Nat) (ts : List Token) : Nat := ts.foldl depthAfter d

/-- The parts between the separators outside all nesting. -/
def splitTop (sep : Token → Bool) : Nat → List Token → List (List Token)
  | _, [] => [[]]
  | d, t :: ts =>
    if d = 0 ∧ sep t = true then [] :: splitTop sep 0 ts
    else (splitTop sep (depthAfter d t) ts).modifyHead (t :: ·)

/-- The parts between the `AND`s outside all nesting. One `AND` belongs to each `BETWEEN`. -/
def splitAnd : Nat → Bool → List Token → List (List Token)
  | _, _, [] => [[]]
  | d, between, t :: ts =>
    if d = 0 ∧ isWord "AND" t = true ∧ between = false then [] :: splitAnd 0 false ts
    else
      let between := if d = 0 then isWord "BETWEEN" t || (between && !isWord "AND" t) else between
      (splitAnd (depthAfter d t) between ts).modifyHead (t :: ·)

def staysOpen : Nat → List Token → Bool
  | 0, _ => false
  | _ + 1, [] => true
  | d + 1, t :: ts => staysOpen (depthAfter (d + 1) t) ts

/-- What a pair of parentheses around all of the tokens holds. -/
def unwrap : List Token → Option (List Token)
  | .symbol '(' :: ts =>
    if ts.getLast? = some (.symbol ')') ∧ staysOpen 1 ts.dropLast = true then some ts.dropLast else none
  | _ => none

/-! ### Conditions -/

structure Row (N : Type) where
  column : Str → Val N
  bound : Nat → Val N
  /-- The truth of predicates that are not read here. -/
  atom : List Token → Truth
  column_congr : ∀ {x y}, eqIgnoreAsciiCase x y = true → column x = column y

namespace Row
variable {N : Type} [DecidableEq N] (row : Row N)

def predicate : List Token → Truth
  | [.word x, .symbol '=', .string s] => (row.column x).equal (.text s)
  | [.word x, .symbol '=', .param p] =>
    match parseUsize p with
    | some (i + 1) => (row.column x).equal (row.bound i)
    | _ => row.atom [.word x, .symbol '=', .param p]
  | ts => row.atom ts

/-- The truth of a condition. Each level of `OR`, `AND`, `NOT` or parentheses is one unit of fuel. -/
def truth : Nat → List Token → Truth
  | 0, ts => row.predicate ts
  | n + 1, ts =>
    let alternatives := splitTop (isWord "OR") 0 ts
    let conjuncts := splitAnd 0 false ts
    if 1 < alternatives.length then alternatives.foldr (fun part t => (truth n part).or t) (some false)
    else if 1 < conjuncts.length then conjuncts.foldr (fun part t => (truth n part).and t) (some true)
    else
      match ts with
      | [] => row.predicate []
      | t :: rest =>
        if isWord "NOT" t then (truth n rest).not
        else
          match unwrap (t :: rest) with
          | some inner => truth n inner
          | none => row.predicate (t :: rest)

end Row

/-- The clause before this token ends here. -/
def endsClause (t : Token) (next : Option Token) : Bool :=
  isWord "LIMIT" t || isWord "HAVING" t || isWord "WINDOW" t ||
    ((isWord "SAMPLE" t || isWord "GROUP" t || isWord "ORDER" t) && next.any (isWord "BY")) ||
    (isWord "LATEST" t && (next.any (isWord "ON") || next.any (isWord "BY")))

def condition : Nat → List Token → List Token
  | _, [] => []
  | d, t :: ts => if d = 0 ∧ endsClause t ts.head? = true then [] else t :: condition (depthAfter d t) ts

def afterTop (sep : Token → Bool) : Nat → List Token → Option (List Token)
  | _, [] => none
  | d, t :: ts => if d = 0 ∧ sep t = true then some ts else afterTop sep (depthAfter d t) ts

def whereOf (ts : List Token) : Option (List Token) := (afterTop (isWord "WHERE") 0 ts).map (condition 0)

/-- Between statements and between the operands of a set operation. -/
def endsSelect (t : Token) : Bool :=
  t = .symbol ';' || isWord "UNION" t || isWord "EXCEPT" t || isWord "INTERSECT" t

/-- The nonempty parts of a text that are selects of their own. -/
def selects (ts : List Token) : List (List Token) := (splitTop endsSelect 0 ts).filter (!·.isEmpty)

/-- The row satisfies the condition of the statement, or of one of its selects. -/
def Row.satisfies {N : Type} [DecidableEq N] (row : Row N) : Nat → List Token → Bool
  | 0, _ => true
  | n + 1, ts =>
    match selects ts with
    | [select] =>
      match unwrap select with
      | some inner => row.satisfies n inner
      | none =>
        match whereOf select with
        | some cond => row.truth (cond.length + 1) cond = some true
        | none => true
    | parts => parts.any fun part => row.satisfies n (part.dropWhile fun t => isWord "ALL" t || isWord "DISTINCT" t)

/-- The row satisfies the condition of an SQL text. -/
def Row.Satisfies {N : Type} [DecidableEq N] (row : Row N) (sql : Str) : Prop :=
  (tokens sql).any (fun ts => row.satisfies (ts.length + 1) ts) = true

/-! ### Splitting -/

theorem splitTop_ne_nil (sep : Token → Bool) (d : Nat) (ts : List Token) : splitTop sep d ts ≠ [] := by
  induction ts generalizing d with
  | nil => exact nofun
  | cons t ts ih =>
    rw [splitTop]
    split
    · exact nofun
    · rw [ne_eq, List.modifyHead_eq_nil_iff]
      exact ih _

theorem splitAnd_ne_nil (d : Nat) (between : Bool) (ts : List Token) : splitAnd d between ts ≠ [] := by
  induction ts generalizing d between with
  | nil => exact nofun
  | cons t ts ih =>
    rw [splitAnd]
    split
    · exact nofun
    · rw [ne_eq, List.modifyHead_eq_nil_iff]
      exact ih _ _

theorem splitTop_single {sep : Token → Bool} {d : Nat} {ts : List Token}
    (single : (splitTop sep d ts).length = 1) : splitTop sep d ts = [ts] := by
  induction ts generalizing d with
  | nil => rfl
  | cons t ts ih =>
    rw [splitTop] at single ⊢
    split
    · rename_i separates
      rw [if_pos separates, List.length_cons, Nat.add_eq_right, List.length_eq_zero_iff] at single
      exact (splitTop_ne_nil _ _ _ single).elim
    · rename_i inside
      rw [if_neg inside, List.length_modifyHead] at single
      rw [ih single]
      rfl

/-- The words that nest, and those that end a predicate or a condition. -/
def reserved : List String :=
  ["CASE", "END", "AND", "OR", "NOT", "BETWEEN", "WHERE", "LIMIT", "HAVING", "WINDOW", "SAMPLE", "GROUP", "ORDER",
    "LATEST"]

def Neutral (t : Token) : Prop :=
  t ≠ .symbol '(' ∧ t ≠ .symbol ')' ∧ ∀ word ∈ reserved, isWord word t = false

instance (t : Token) : Decidable (Neutral t) := by unfold Neutral; infer_instance

theorem Neutral.word {t : Token} (neutral : Neutral t) {word : String} (member : word ∈ reserved) :
    isWord word t = false := neutral.2.2 word member

theorem Neutral.depthAfter_eq {t : Token} (neutral : Neutral t) (d : Nat) : depthAfter d t = d := by
  have notCase : isWord "CASE" t = false := neutral.word (by decide)
  have notEnd : isWord "END" t = false := neutral.word (by decide)
  rw [depthAfter, if_neg (by simp [neutral.1, notCase]), if_neg (by simp [neutral.2.1, notEnd])]

theorem splitTop_neutral {sep : Token → Bool} {ts : List Token} (neutral : ∀ t ∈ ts, Neutral t)
    (none : ∀ t ∈ ts, sep t = false) (rest : List Token) :
    splitTop sep 0 (ts ++ rest) = (splitTop sep 0 rest).modifyHead (ts ++ ·) := by
  induction ts with
  | nil =>
    cases split : splitTop sep 0 rest <;> simp [split]
  | cons t ts ih =>
    rw [List.forall_mem_cons] at neutral none
    rw [List.cons_append, splitTop, if_neg (by simp [none.1]), neutral.1.depthAfter_eq, ih neutral.2 none.2,
      List.modifyHead_modifyHead]
    rfl

theorem splitAnd_neutral {ts : List Token} (neutral : ∀ t ∈ ts, Neutral t) (rest : List Token) :
    splitAnd 0 false (ts ++ rest) = (splitAnd 0 false rest).modifyHead (ts ++ ·) := by
  induction ts with
  | nil =>
    cases split : splitAnd 0 false rest <;> simp [split]
  | cons t ts ih =>
    obtain ⟨first, rest_neutral⟩ := List.forall_mem_cons.mp neutral
    have notAnd : isWord "AND" t = false := first.word (by decide)
    have notBetween : isWord "BETWEEN" t = false := first.word (by decide)
    rw [List.cons_append, splitAnd, if_neg (by simp [notAnd]), first.depthAfter_eq]
    simp only [if_true, notBetween, Bool.false_and, Bool.or_false]
    rw [ih rest_neutral, List.modifyHead_modifyHead]
    rfl

theorem condition_neutral {ts : List Token} (neutral : ∀ t ∈ ts, Neutral t) (rest : List Token) :
    condition 0 (ts ++ rest) = ts ++ condition 0 rest := by
  induction ts with
  | nil => rfl
  | cons t ts ih =>
    obtain ⟨first, rest_neutral⟩ := List.forall_mem_cons.mp neutral
    have words : ∀ word ∈ reserved, isWord word t = false := fun _ member => first.word member
    have goes : ∀ next, endsClause t next = false := by
      intro next
      simp only [reserved, List.forall_mem_cons] at words
      simp [endsClause, words]
    rw [List.cons_append, condition, if_neg (by simp [goes]), first.depthAfter_eq, ih rest_neutral]
    rfl

theorem afterTop_append {sep : Token → Bool} {d : Nat} {before : List Token} (none : afterTop sep d before = none)
    (rest : List Token) : afterTop sep d (before ++ rest) = afterTop sep (depth d before) rest := by
  induction before generalizing d with
  | nil => rfl
  | cons t before ih =>
    rw [afterTop] at none
    split at none
    · cases none
    · rename_i inside
      rw [List.cons_append, afterTop, if_neg inside, ih none]
      rfl

/-! ### The first conjunct -/

section Conjunct
variable {N : Type} [DecidableEq N] {row : Row N}

theorem truth_predicate {t : Token} {ts : List Token} (neutral : ∀ u ∈ t :: ts, Neutral u) (n : Nat) :
    row.truth n (t :: ts) = row.predicate (t :: ts) := by
  cases n with
  | zero => rfl
  | succ n =>
    have noOr : splitTop (isWord "OR") 0 (t :: ts) = [t :: ts] := by
      have none : ∀ u ∈ t :: ts, isWord "OR" u = false := fun u member => (neutral u member).word (by decide)
      have split := splitTop_neutral neutral none []
      simpa [splitTop] using split
    have noAnd : splitAnd 0 false (t :: ts) = [t :: ts] := by
      have split := splitAnd_neutral neutral []
      simpa [splitAnd] using split
    have notNot : isWord "NOT" t = false := (neutral t List.mem_cons_self).word (by decide)
    have notOpen : unwrap (t :: ts) = none := by
      have notParen := (neutral t List.mem_cons_self).1
      unfold unwrap
      split
      · rename_i same
        cases same
        contradiction
      · rfl
    simp [Row.truth, noOr, noAnd, notNot, notOpen]

theorem truth_first {t : Token} {ts more : List Token} (neutral : ∀ u ∈ t :: ts, Neutral u)
    (joined : more.head?.all (isWord "AND") = true)
    (noOr : (splitTop (isWord "OR") 0 more).length = 1) {n : Nat}
    (holds : row.truth (n + 1) (t :: ts ++ more) = some true) : row.predicate (t :: ts) = some true := by
  have alternatives : splitTop (isWord "OR") 0 (t :: ts ++ more) = [t :: ts ++ more] := by
    have none : ∀ u ∈ t :: ts, isWord "OR" u = false := fun u member => (neutral u member).word (by decide)
    rw [splitTop_neutral neutral none, splitTop_single noOr]
    rfl
  cases more with
  | nil =>
    rw [List.append_nil, truth_predicate neutral] at holds
    exact holds
  | cons u more =>
    have isAnd : isWord "AND" u = true := joined
    have conjuncts : splitAnd 0 false (t :: ts ++ u :: more) = (t :: ts) :: splitAnd 0 false more := by
      rw [splitAnd_neutral neutral, splitAnd, if_pos ⟨rfl, isAnd, rfl⟩]
      simp
    have several : 1 < ((t :: ts) :: splitAnd 0 false more).length := by
      have := List.length_pos_iff.mpr (splitAnd_ne_nil 0 false more)
      rw [List.length_cons]
      omega
    unfold Row.truth at holds
    simp only [alternatives, conjuncts, List.length_singleton, Nat.lt_irrefl, if_false, several, if_true,
      List.foldr_cons, Truth.and_eq_true] at holds
    rw [truth_predicate neutral] at holds
    exact holds.1

theorem foldr_or_true {parts : List (List Token)} {part : List Token} (member : part ∈ parts) {n : Nat}
    (holds : row.truth n part = some true) :
    parts.foldr (fun part t => (row.truth n part).or t) (some false) = some true := by
  induction parts with
  | nil => cases member
  | cons first parts ih =>
    rw [List.foldr_cons, Truth.or_eq_true]
    rcases List.mem_cons.mp member with rfl | inside
    · exact .inl holds
    · exact .inr (ih inside)

theorem truth_alternative {cond part : List Token} (member : part ∈ splitTop (isWord "OR") 0 cond)
    (nonempty : part ≠ []) (neutral : ∀ t ∈ part, Neutral t) (holds : row.predicate part = some true) (n : Nat) :
    row.truth (n + 1) cond = some true := by
  obtain ⟨t, ts, rfl⟩ := List.exists_cons_of_ne_nil nonempty
  by_cases several : 1 < (splitTop (isWord "OR") 0 cond).length
  · unfold Row.truth
    simp only [several, if_true]
    exact foldr_or_true member (by rw [truth_predicate neutral, holds])
  · have single : (splitTop (isWord "OR") 0 cond).length = 1 := by
      have := List.length_pos_iff.mpr (splitTop_ne_nil (isWord "OR") 0 cond)
      omega
    rw [splitTop_single single, List.mem_singleton] at member
    rw [← member, truth_predicate neutral, holds]

end Conjunct

end QuestRouter.Sql
