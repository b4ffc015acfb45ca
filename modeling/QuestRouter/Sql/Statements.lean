import QuestRouter.Sql.Ast
import QuestRouter.Sql.Clauses

/-!
# Kinds of statements

What a text is, as a shard reads it: statements separated by semicolons, each a read, a session
statement or something else. Only keywords, parentheses, dots and semicolons matter for that.
-/

namespace QuestRouter.Sql
open Text

def writeWords : List String :=
  ["INSERT", "UPDATE", "DELETE", "MERGE", "CREATE", "DROP", "ALTER", "TRUNCATE", "COPY", "RENAME", "VACUUM", "REINDEX"]

def sessionWords : List String :=
  ["BEGIN", "START", "COMMIT", "END", "ROLLBACK", "SET", "SHOW", "DISCARD", "DEALLOCATE", "CLOSE"]

def readWords : List String := ["SELECT", "FROM"]

def keywords : List String := readWords ++ ["WITH", "AS", "MATERIALIZED", "INTO"] ++ sessionWords ++ writeWords

/-- What matters of a token. -/
inductive Kind where
  | keyword (word : String)
  | opening
  | closing
  | semicolon
  | dot
  | other
  deriving DecidableEq, Repr

def kind (t : Token) : Kind :=
  match keywords.find? (isWord · t) with
  | some word => .keyword word
  | none =>
    if t = .symbol '(' then .opening
    else if t = .symbol ')' then .closing
    else if t = .symbol ';' then .semicolon
    else if t = .symbol '.' then .dot
    else .other

/-- The statements between the semicolons. -/
def statements (ks : List Kind) : List (List Kind) :=
  (ks.splitOnP (· == .semicolon)).filter (!·.isEmpty)

def startsWith (words : List String) : List Kind → Bool
  | .keyword word :: _ => words.contains word
  | _ => false

/-- `INTO` as a clause outside all parentheses, and not as a name or an alias. -/
def hasInto : Nat → Option Kind → List Kind → Bool
  | _, _, [] => false
  | d, _, .opening :: ks => hasInto (d + 1) (some .opening) ks
  | d, _, .closing :: ks => hasInto (d - 1) (some .closing) ks
  | d, prev, k :: ks =>
    (d == 0 && k == .keyword "INTO" && prev != some .dot && prev != some (.keyword "AS")) || hasInto d (some k) ks

/-- In a statement that starts with `WITH`, a write where a statement may start: in a common table
expression, or after the last of them. -/
def writesInside : Nat → Option Kind → List Kind → Bool
  | _, _, [] => false
  | d, prev, .opening :: ks =>
    ((prev == some (.keyword "AS") || prev == some (.keyword "MATERIALIZED")) && startsWith writeWords ks) ||
      writesInside (d + 1) (some .opening) ks
  | d, _, .closing :: ks => (d == 1 && startsWith writeWords ks) || writesInside (d - 1) (some .closing) ks
  | d, _, k :: ks => writesInside d (some k) ks

/-- A statement of the `SELECT` type. -/
def isRead (ks : List Kind) : Bool :=
  let body := ks.dropWhile (· == .opening)
  (startsWith readWords body || (startsWith ["WITH"] body && !writesInside 0 none body)) && !hasInto 0 none body

def isSession (ks : List Kind) : Bool := startsWith sessionWords ks

def readOnly (ks : List Kind) : Bool :=
  match statements ks with
  | [statement] => isRead statement || isSession statement
  | _ => false

/-- The text is exactly one statement, a read or a session statement. -/
def ReadOnly (sql : Str) : Prop := (tokens sql).any (fun ts => readOnly (ts.map kind)) = true

instance ReadOnly.decidable (sql : Str) : Decidable (ReadOnly sql) := inferInstanceAs (Decidable (_ = true))

/-! ### What these texts are

The same in terms of what stands where among the tokens. -/

def StartsWith (words : List String) (ks : List Kind) : Prop := ∃ word rest, ks = .keyword word :: rest ∧ word ∈ words

def parens (d : Nat) (ks : List Kind) : Nat :=
  ks.foldl (fun d k => match k with
    | .opening => d + 1
    | .closing => d - 1
    | _ => d) d

/-- `INTO` outside all parentheses, and not behind a dot or an `AS`. -/
def HasInto (ks : List Kind) : Prop :=
  ∃ before behind, ks = before ++ .keyword "INTO" :: behind ∧ parens 0 before = 0 ∧
    before.getLast? ≠ some .dot ∧ before.getLast? ≠ some (.keyword "AS")

/-- A write word behind an opening parenthesis after `AS` or `MATERIALIZED`, or behind the parenthesis that closes
the outermost one. -/
def WritesInside (ks : List Kind) : Prop :=
  ∃ before bracket word behind, ks = before ++ bracket :: .keyword word :: behind ∧ word ∈ writeWords ∧
    (bracket = .opening ∧
        (before.getLast? = some (.keyword "AS") ∨ before.getLast? = some (.keyword "MATERIALIZED")) ∨
      bracket = .closing ∧ parens 0 before = 1)

/-- Behind opening parentheses, a `SELECT` or `FROM`, or a `WITH` that does not write, without an `INTO`. -/
def Reads (statement : List Kind) : Prop :=
  ∃ opens body, statement = List.replicate opens .opening ++ body ∧
    (StartsWith readWords body ∨ StartsWith ["WITH"] body ∧ ¬ WritesInside body) ∧ ¬ HasInto body

/-- The tokens of the text are those of one statement, with nothing but semicolons before and behind it, and it reads
or is one of the session. -/
def OneHarmless (sql : Str) : Prop :=
  ∃ ts before statement behind, tokens sql = some ts ∧
    ts.map kind = List.replicate before .semicolon ++ statement ++ List.replicate behind .semicolon ∧
    .semicolon ∉ statement ∧ (Reads statement ∨ StartsWith sessionWords statement)

/-! ### One statement -/

theorem startsWith_iff {words : List String} {ks : List Kind} : startsWith words ks = true ↔ StartsWith words ks := by
  unfold startsWith StartsWith
  split
  · rename_i word rest
    rw [List.contains_iff_mem]
    constructor
    · exact fun member => ⟨word, rest, rfl, member⟩
    · rintro ⟨word', rest', same, member⟩
      rw [← Kind.keyword.inj (List.cons.inj same).1] at member
      exact member
  · rename_i other
    refine iff_of_false Bool.false_ne_true ?_
    rintro ⟨word, rest, rfl, _⟩
    exact other word rest rfl

theorem statements_semicolon (ks : List Kind) : statements (.semicolon :: ks) = statements ks := by
  rw [statements, statements, List.splitOnP_cons_eq_if_modifyHead, if_pos (by decide), List.filter_cons_of_neg (by simp)]

theorem statements_append {ks : List Kind} (present : ks ≠ []) (whole : .semicolon ∉ ks) (rest : List Kind) :
    statements (ks ++ .semicolon :: rest) = ks :: statements rest := by
  have inside : ∀ k ∈ ks, (k == Kind.semicolon) = false := fun k member =>
    beq_eq_false_iff_ne.mpr fun same => whole (same ▸ member)
  rw [statements, List.splitOnP_append_cons_of_forall_mem inside _ (by decide),
    List.filter_cons_of_pos (by simpa using present)]
  rfl

theorem statements_whole {ks : List Kind} (present : ks ≠ []) (whole : .semicolon ∉ ks) : statements ks = [ks] := by
  have inside : ∀ k ∈ ks, (k == Kind.semicolon) = false := fun k member =>
    beq_eq_false_iff_ne.mpr fun same => whole (same ▸ member)
  rw [statements, List.splitOnP_eq_singleton inside, List.filter_cons_of_pos (by simpa using present), List.filter_nil]

theorem statements_semicolons (n : Nat) : statements (List.replicate n .semicolon) = [] := by
  induction n with
  | zero => rfl
  | succ n ih => rw [List.replicate_succ, statements_semicolon, ih]

/-- Up to the first semicolon behind a token. -/
theorem first_statement (ks : List Kind) :
    (∃ n, ks = List.replicate n .semicolon) ∨
      ∃ before statement rest, ks = List.replicate before .semicolon ++ statement ++ rest ∧ statement ≠ [] ∧
        .semicolon ∉ statement ∧ (rest = [] ∨ ∃ later, rest = .semicolon :: later) := by
  induction ks with
  | nil => exact .inl ⟨0, rfl⟩
  | cons k ks ih =>
    by_cases semicolon : k = .semicolon
    · subst semicolon
      rcases ih with ⟨n, rfl⟩ | ⟨before, statement, rest, rfl, one⟩
      · exact .inl ⟨n + 1, by rw [List.replicate_succ]⟩
      · exact .inr ⟨before + 1, statement, rest, by rw [List.replicate_succ, List.cons_append, List.cons_append], one⟩
    · right
      have apart : ∀ {statement : List Kind}, .semicolon ∉ statement → .semicolon ∉ k :: statement :=
        fun others member => (List.mem_cons.mp member).elim (fun same => semicolon same.symm) others
      rcases ih with ⟨n, rfl⟩ | ⟨before, statement, rest, rfl, present, whole, ends⟩
      · refine ⟨0, [k], List.replicate n .semicolon, rfl, List.cons_ne_nil _ _, apart List.not_mem_nil, ?_⟩
        cases n with
        | zero => exact .inl rfl
        | succ n => exact .inr ⟨_, List.replicate_succ⟩
      · cases before with
        | zero => exact ⟨0, k :: statement, rest, rfl, List.cons_ne_nil _ _, apart whole, ends⟩
        | succ before =>
          refine ⟨0, [k], _, rfl, List.cons_ne_nil _ _, apart List.not_mem_nil, .inr ⟨?_, ?_⟩⟩
          · exact List.replicate before .semicolon ++ statement ++ rest
          · rfl

theorem statements_skip (n : Nat) (ks : List Kind) :
    statements (List.replicate n .semicolon ++ ks) = statements ks := by
  induction n with
  | zero => rfl
  | succ n ih => rw [List.replicate_succ, List.cons_append, statements_semicolon, ih]

theorem statements_none {ks : List Kind} (none : statements ks = []) : ∃ n, ks = List.replicate n .semicolon := by
  rcases first_statement ks with semicolons | ⟨before, statement, rest, rfl, present, whole, rfl | ⟨later, rfl⟩⟩
  · exact semicolons
  · rw [List.append_nil, statements_skip, statements_whole present whole] at none
    cases none
  · rw [List.append_assoc, statements_skip, statements_append present whole] at none
    cases none

theorem statements_one {ks statement : List Kind} : statements ks = [statement] ↔
    statement ≠ [] ∧ .semicolon ∉ statement ∧
      ∃ before behind, ks = List.replicate before .semicolon ++ statement ++ List.replicate behind .semicolon := by
  constructor
  · intro one
    rcases first_statement ks with ⟨n, rfl⟩ | ⟨before, first, rest, rfl, present, whole, rfl | ⟨later, rfl⟩⟩
    · rw [statements_semicolons] at one
      cases one
    · rw [List.append_nil, statements_skip, statements_whole present whole] at one
      obtain rfl := List.singleton_inj.mp one
      exact ⟨present, whole, before, 0, rfl⟩
    · rw [List.append_assoc, statements_skip, statements_append present whole] at one
      obtain ⟨rfl, none⟩ := List.cons.inj one
      obtain ⟨n, rfl⟩ := statements_none none
      exact ⟨present, whole, before, n + 1, by rw [List.replicate_succ]⟩
  · rintro ⟨present, whole, before, behind, rfl⟩
    rw [List.append_assoc, statements_skip]
    cases behind with
    | zero =>
      rw [List.replicate_zero, List.append_nil]
      exact statements_whole present whole
    | succ behind => rw [List.replicate_succ, statements_append present whole, statements_semicolons]

/-! ### Keywords in their places -/

/-- What stands before a token is the last one of those before it, or else the one before them all. -/
theorem getLast_cons_or (k : Kind) (ks : List Kind) (prev : Option Kind) :
    (k :: ks).getLast?.or prev = ks.getLast?.or (some k) := by
  cases ks with
  | nil => rfl
  | cons k' ks => rw [List.getLast?_cons_cons, List.getLast?_cons, Option.some_or, Option.some_or]

/-- The place is the first one, or one behind it. -/
theorem exists_split_cons {α : Type} {P : List α → α → List α → Prop} (k : α) (ks : List α) :
    (∃ before x behind, k :: ks = before ++ x :: behind ∧ P before x behind) ↔
      P [] k ks ∨ ∃ before x behind, ks = before ++ x :: behind ∧ P (k :: before) x behind := by
  constructor
  · rintro ⟨before, x, behind, split, holds⟩
    cases before with
    | nil =>
      obtain ⟨rfl, rfl⟩ := List.cons.inj split
      exact .inl holds
    | cons k' before =>
      obtain ⟨rfl, rfl⟩ := List.cons.inj split
      exact .inr ⟨before, x, behind, rfl, holds⟩
  · rintro (holds | ⟨before, x, behind, rfl, holds⟩)
    · exact ⟨[], k, ks, rfl, holds⟩
    · exact ⟨k :: before, x, behind, rfl, holds⟩

theorem parens_cons (d : Nat) (k : Kind) (ks : List Kind) : parens d (k :: ks) =
    parens (match k with
      | .opening => d + 1
      | .closing => d - 1
      | _ => d) ks := rfl

theorem hasInto_iff {d : Nat} {prev : Option Kind} {ks : List Kind} : hasInto d prev ks = true ↔
    ∃ before k behind, ks = before ++ k :: behind ∧ parens d before = 0 ∧ k = .keyword "INTO" ∧
      before.getLast?.or prev ≠ some .dot ∧ before.getLast?.or prev ≠ some (.keyword "AS") := by
  induction ks generalizing d prev with
  | nil => simp [hasInto]
  | cons k ks ih =>
    rw [exists_split_cons]
    simp only [parens_cons, getLast_cons_or, ← ih]
    cases k <;> simp [hasInto, parens, and_assoc]

theorem writesInside_iff {d : Nat} {prev : Option Kind} {ks : List Kind} : writesInside d prev ks = true ↔
    ∃ before bracket behind, ks = before ++ bracket :: behind ∧ StartsWith writeWords behind ∧
      (bracket = .opening ∧ (before.getLast?.or prev = some (.keyword "AS") ∨
          before.getLast?.or prev = some (.keyword "MATERIALIZED")) ∨
        bracket = .closing ∧ parens d before = 1) := by
  induction ks generalizing d prev with
  | nil => simp [writesInside]
  | cons k ks ih =>
    rw [exists_split_cons]
    simp only [parens_cons, getLast_cons_or, ← ih]
    cases k <;> simp [writesInside, parens, ← startsWith_iff, and_comm]

theorem hasInto_outside {ks : List Kind} : hasInto 0 none ks = true ↔ HasInto ks := by
  rw [hasInto_iff, HasInto]
  constructor
  · rintro ⟨before, _, behind, rfl, outside, rfl, free⟩
    exact ⟨before, behind, rfl, outside, by simpa only [Option.or_none] using free⟩
  · rintro ⟨before, behind, rfl, outside, free⟩
    exact ⟨before, _, behind, rfl, outside, rfl, by simpa only [Option.or_none] using free⟩

theorem writesInside_outside {ks : List Kind} : writesInside 0 none ks = true ↔ WritesInside ks := by
  rw [writesInside_iff, WritesInside]
  constructor
  · rintro ⟨before, bracket, _, rfl, ⟨word, behind, rfl, member⟩, place⟩
    exact ⟨before, bracket, word, behind, rfl, member, by simpa only [Option.or_none] using place⟩
  · rintro ⟨before, bracket, word, behind, rfl, member, place⟩
    exact ⟨before, bracket, _, rfl, ⟨word, behind, rfl, member⟩, by simpa only [Option.or_none] using place⟩

/-! ### Harmless texts -/

theorem dropWhile_opening (statement : List Kind) : ∃ opens, statement =
    List.replicate opens .opening ++ statement.dropWhile (· == .opening) := by
  induction statement with
  | nil => exact ⟨0, rfl⟩
  | cons k statement ih =>
    by_cases opening : k = .opening
    · subst opening
      obtain ⟨opens, split⟩ := ih
      refine ⟨opens + 1, ?_⟩
      rw [List.dropWhile_cons_of_pos (by decide), List.replicate_succ, List.cons_append, ← split]
    · refine ⟨0, ?_⟩
      rw [List.dropWhile_cons_of_neg (by simpa using opening)]
      rfl

/-- The test on what stands behind the opening parentheses. -/
theorem readBody_iff (body : List Kind) :
    ((startsWith readWords body || (startsWith ["WITH"] body && !writesInside 0 none body)) &&
      !hasInto 0 none body) = true ↔
      (StartsWith readWords body ∨ StartsWith ["WITH"] body ∧ ¬ WritesInside body) ∧ ¬ HasInto body := by
  rw [← hasInto_outside, ← writesInside_outside, ← startsWith_iff, ← startsWith_iff]
  simp

theorem isRead_iff {statement : List Kind} : isRead statement = true ↔ Reads statement := by
  unfold isRead
  dsimp only
  rw [readBody_iff]
  constructor
  · intro reads
    obtain ⟨opens, split⟩ := dropWhile_opening statement
    exact ⟨opens, _, split, reads⟩
  · rintro ⟨opens, rest, rfl, reads⟩
    have starts : ∃ word later, rest = .keyword word :: later := by
      rcases reads.1 with ⟨word, later, same, _⟩ | ⟨⟨word, later, same, _⟩, _⟩ <;> exact ⟨word, later, same⟩
    obtain ⟨word, later, rfl⟩ := starts
    have dropped : (List.replicate opens Kind.opening ++ .keyword word :: later).dropWhile (· == .opening) =
        .keyword word :: later := by
      rw [List.dropWhile_append_of_pos fun k member => by rw [List.eq_of_mem_replicate member]; decide]
      rfl
    rw [dropped]
    exact reads

theorem present_of_reads {statement : List Kind} (reads : Reads statement) : statement ≠ [] := by
  rintro rfl
  obtain ⟨opens, body, none, starts, _⟩ := reads
  rw [eq_comm, List.append_eq_nil_iff] at none
  rcases starts with ⟨_, _, same, _⟩ | ⟨⟨_, _, same, _⟩, _⟩ <;> rw [none.2] at same <;> cases same

theorem present_of_startsWith {words : List String} {ks : List Kind} (starts : StartsWith words ks) : ks ≠ [] := by
  obtain ⟨word, rest, rfl, _⟩ := starts
  exact List.cons_ne_nil _ _

theorem readOnly_iff (ks : List Kind) : readOnly ks = true ↔ ∃ before statement behind,
    ks = List.replicate before .semicolon ++ statement ++ List.replicate behind .semicolon ∧
      .semicolon ∉ statement ∧ (Reads statement ∨ StartsWith sessionWords statement) := by
  have harmless : ∀ statement, (isRead statement || isSession statement) = true ↔
      Reads statement ∨ StartsWith sessionWords statement := by
    intro statement
    rw [Bool.or_eq_true, isRead_iff, isSession, startsWith_iff]
  unfold readOnly
  constructor
  · intro readOnly
    split at readOnly
    · rename_i statement one
      obtain ⟨_, whole, before, behind, split⟩ := statements_one.mp one
      exact ⟨before, statement, behind, split, whole, (harmless statement).mp readOnly⟩
    · cases readOnly
  · rintro ⟨before, statement, behind, rfl, whole, reads⟩
    have present : statement ≠ [] := reads.elim present_of_reads present_of_startsWith
    rw [statements_one.mpr ⟨present, whole, before, behind, rfl⟩]
    exact (harmless statement).mpr reads

theorem oneHarmless_iff (sql : Str) : OneHarmless sql ↔ ReadOnly sql := by
  rw [ReadOnly, OneHarmless]
  cases read : tokens sql with
  | none => simp
  | some ts =>
    rw [Option.any_some, readOnly_iff]
    constructor
    · rintro ⟨ts', before, statement, behind, same, harmless⟩
      obtain rfl := Option.some.inj same
      exact ⟨before, statement, behind, harmless⟩
    · rintro ⟨before, statement, behind, harmless⟩
      exact ⟨ts, before, statement, behind, rfl, harmless⟩

instance OneHarmless.decidable (sql : Str) : Decidable (OneHarmless sql) :=
  decidable_of_iff _ (oneHarmless_iff sql).symm

end QuestRouter.Sql
