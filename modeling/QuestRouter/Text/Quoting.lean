import QuestRouter.Text.Escape

/-!
# Delimiters outside escapes and quotation marks

A backslash takes the next character as it stands. Where quotation marks have a meaning, nothing between them is a
delimiter.
-/

namespace QuestRouter.Text

/-- What the characters before a place say about it. -/
structure Scan where
  escaped : Bool := false
  quoted : Bool := false
  deriving DecidableEq, Repr

namespace Scan

def bare (scan : Scan) : Bool := !scan.escaped && !scan.quoted

def next (marks : Bool) (scan : Scan) (c : Char) : Scan :=
  if scan.escaped then { scan with escaped := false }
  else if c = '\\' then { scan with escaped := true }
  else if marks && c == '"' then { scan with quoted := !scan.quoted }
  else scan

/-- The text before the first bare delimiter, and the text from it on. -/
def cut (marks : Bool) (delimiter : Char → Bool) : Scan → Str → Str × Str
  | _, [] => ([], [])
  | scan, c :: s =>
    if scan.bare && delimiter c then ([], c :: s)
    else (c :: (cut marks delimiter (scan.next marks c) s).1, (cut marks delimiter (scan.next marks c) s).2)

/-- The texts between the bare delimiters. -/
def split (marks : Bool) (delimiter : Char → Bool) : Scan → Str → List Str
  | _, [] => [[]]
  | scan, c :: s =>
    if scan.bare && delimiter c then [] :: split marks delimiter scan s
    else (split marks delimiter (scan.next marks c) s).modifyHead (c :: ·)

/-- Where a text without a bare delimiter leads. -/
def passes (marks : Bool) (delimiter : Char → Bool) : Scan → Str → Option Scan
  | scan, [] => some scan
  | scan, c :: s => if scan.bare && delimiter c then none else passes marks delimiter (scan.next marks c) s

end Scan

def unescape : Str → Str
  | [] => []
  | '\\' :: c :: s => c :: unescape s
  | c :: s => c :: unescape s

theorem unescape_cons {c : Char} (other : c ≠ '\\') (s : Str) : unescape (c :: s) = c :: unescape s := by
  rw [unescape]
  intro _ _ same
  exact (other same).elim

theorem unescape_backslashed {special : Char → Bool} (backslash : special '\\' = true) (s : Str) :
    unescape (backslashed special s) = s := by
  induction s with
  | nil => rfl
  | cons c s ih =>
    rw [backslashed_cons]
    split
    · change c :: unescape (backslashed special s) = c :: s
      rw [ih]
    · rename_i plain
      have other : c ≠ '\\' := fun same => plain (same ▸ backslash)
      rw [List.singleton_append, unescape_cons other, ih]

namespace Scan

variable {marks : Bool} {delimiter : Char → Bool} {scan after : Scan} {s t : Str} {d : Char}

/-! ### Texts without a bare delimiter -/

theorem passes_append (scan : Scan) (s t : Str) :
    passes marks delimiter scan (s ++ t) =
      (passes marks delimiter scan s).bind fun after => passes marks delimiter after t := by
  induction s generalizing scan with
  | nil => rfl
  | cons c s ih =>
    rw [List.cons_append, passes, passes, ih]
    split <;> rfl

theorem passes_trans (first : passes marks delimiter scan s = some after) (t : Str) :
    passes marks delimiter scan (s ++ t) = passes marks delimiter after t := by
  rw [passes_append, first, Option.bind_some]

theorem passes_plain (plain : ∀ c ∈ s, delimiter c = false ∧ c ≠ '\\' ∧ (marks = true → c ≠ '"')) :
    passes marks delimiter {} s = some {} := by
  induction s with
  | nil => rfl
  | cons c s ih =>
    obtain ⟨⟨delimiter, backslash, mark⟩, rest⟩ := List.forall_mem_cons.mp plain
    have stays : next marks {} c = {} := by
      rw [next, if_neg (by decide), if_neg backslash, if_neg]
      rw [Bool.and_eq_true, beq_iff_eq]
      exact fun both => mark both.1 both.2
    rw [passes, delimiter, Bool.and_false, if_neg Bool.false_ne_true, stays, ih rest]

theorem passes_fewer {fewer : Char → Bool} (less : ∀ c, fewer c = true → delimiter c = true)
    (passed : passes marks delimiter scan s = some after) : passes marks fewer scan s = some after := by
  induction s generalizing scan with
  | nil => exact passed
  | cons c s ih =>
    rw [passes] at passed ⊢
    split at passed
    · cases passed
    · rename_i inside
      rw [if_neg fun found => inside ?_]
      · exact ih passed
      · rw [Bool.and_eq_true] at found ⊢
        exact ⟨found.1, less c found.2⟩

/-- Where all that has a meaning is escaped, a text leads nowhere else. -/
theorem passes_backslashed {special : Char → Bool} {quoted : Bool} (backslash : special '\\' = true)
    (ordinary : delimiter '\\' = false) (delimiters : quoted = false → ∀ c, delimiter c = true → special c = true)
    (mark : marks = true → '"' ∈ s → special '"' = true) :
    passes marks delimiter { quoted } (backslashed special s) = some { quoted } := by
  induction s with
  | nil => rfl
  | cons c s ih =>
    have later : marks = true → '"' ∈ s → special '"' = true := fun counts inside =>
      mark counts (List.mem_cons_of_mem c inside)
    rw [backslashed_cons]
    cases kind : special c with
    | true =>
      have escaped : next marks { quoted } '\\' = { escaped := true, quoted } := rfl
      have returned : next marks { escaped := true, quoted } c = { quoted } := rfl
      rw [if_pos rfl, List.cons_append, List.singleton_append, passes, ordinary, Bool.and_false,
        if_neg Bool.false_ne_true, escaped, passes, returned]
      exact ih later
    | false =>
      have other : c ≠ '\\' := by
        rintro rfl
        rw [backslash] at kind
        cases kind
      have inside : (bare { quoted } && delimiter c) = false := by
        cases quoted with
        | true => rfl
        | false =>
          rw [Bool.and_eq_false_iff, ← Bool.not_eq_true (delimiter c)]
          refine .inr fun found => ?_
          rw [delimiters rfl c found] at kind
          cases kind
      have stays : next marks { quoted } c = { quoted } := by
        rw [next, if_neg Bool.false_ne_true, if_neg other, if_neg]
        rw [Bool.and_eq_true, beq_iff_eq]
        rintro ⟨counts, rfl⟩
        rw [mark counts List.mem_cons_self] at kind
        cases kind
      rw [if_neg Bool.false_ne_true, List.singleton_append, passes, inside, if_neg Bool.false_ne_true, stays]
      exact ih later

/-! ### Reading up to a bare delimiter -/

theorem cut_append (passed : passes marks delimiter scan s = some after) (t : Str) :
    cut marks delimiter scan (s ++ t) = (s ++ (cut marks delimiter after t).1, (cut marks delimiter after t).2) := by
  induction s generalizing scan with
  | nil =>
    cases passed
    rfl
  | cons c s ih =>
    rw [passes] at passed
    split at passed
    · cases passed
    · rename_i inside
      rw [List.cons_append, cut, if_neg inside, ih passed, List.cons_append]

theorem cut_at (passed : passes marks delimiter {} s = some {}) (found : delimiter d = true) (t : Str) :
    cut marks delimiter {} (s ++ d :: t) = (s, d :: t) := by
  have stops : (bare {} && delimiter d) = true := found
  rw [cut_append passed, cut, if_pos stops, List.append_nil]

theorem split_append (passed : passes marks delimiter scan s = some after) (t : Str) :
    split marks delimiter scan (s ++ t) = (split marks delimiter after t).modifyHead (s ++ ·) := by
  induction s generalizing scan with
  | nil =>
    cases passed
    rw [List.nil_append]
    cases split marks delimiter after t <;> rfl
  | cons c s ih =>
    rw [passes] at passed
    split at passed
    · cases passed
    · rename_i inside
      rw [List.cons_append, split, if_neg inside, ih passed]
      cases split marks delimiter after t <;> rfl

theorem split_at (passed : passes marks delimiter {} s = some {}) (found : delimiter d = true) (t : Str) :
    split marks delimiter {} (s ++ d :: t) = s :: split marks delimiter {} t := by
  have stops : (bare {} && delimiter d) = true := found
  rw [split_append passed, split, if_pos stops, List.modifyHead_cons, List.append_nil]

theorem split_end (passed : passes marks delimiter {} s = some after) : split marks delimiter {} s = [s] := by
  have whole := split_append passed []
  rwa [List.append_nil, split, List.modifyHead_cons, List.append_nil] at whole

/-! ### Pieces with delimiters between them -/

theorem split_intercalate (found : delimiter d = true) {pieces : List Str} (some : pieces ≠ [])
    (passed : ∀ piece ∈ pieces, passes marks delimiter {} piece = .some {}) :
    split marks delimiter {} ([d].intercalate pieces) = pieces := by
  induction pieces with
  | nil => exact (some rfl).elim
  | cons piece pieces ih =>
    obtain ⟨here, later⟩ := List.forall_mem_cons.mp passed
    cases pieces with
    | nil =>
      rw [List.intercalate_singleton]
      exact split_end here
    | cons next rest =>
      rw [List.intercalate_cons_cons, List.append_assoc, List.singleton_append, split_at here found,
        ih (List.cons_ne_nil next rest) later]

theorem passes_intercalate (between : passes marks delimiter {} [d] = some {}) {pieces : List Str}
    (passed : ∀ piece ∈ pieces, passes marks delimiter {} piece = some {}) :
    passes marks delimiter {} ([d].intercalate pieces) = some {} := by
  induction pieces with
  | nil => rfl
  | cons piece pieces ih =>
    obtain ⟨here, later⟩ := List.forall_mem_cons.mp passed
    cases pieces with
    | nil =>
      rw [List.intercalate_singleton]
      exact here
    | cons next rest =>
      rw [List.intercalate_cons_cons, List.append_assoc, passes_trans here, passes_trans between]
      exact ih later

end Scan
end QuestRouter.Text
