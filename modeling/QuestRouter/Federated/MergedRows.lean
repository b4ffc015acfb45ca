import QuestRouter.Data.Checked
import QuestRouter.Federated.Merge

/-!
# Merged rows

Responses are merged if they have the same number of columns and not too many rows. Otherwise the first response
that violates this decides the error, the number of columns before the rows.
-/

namespace QuestRouter.Federated
open Text Data

def ClientResponse.fields? : ClientResponse → Option (List FieldInfo)
  | .query fields _ => some fields
  | _ => none

/-- The query results can be put under each other, and are not too many. -/
structure Mergeable (maxRows : Nat) (responses : List ClientResponse) : Prop where
  columns : ∀ f ∈ responses.filterMap ClientResponse.fields?, ∀ g ∈ responses.filterMap ClientResponse.fields?,
    f.length = g.length
  rows : (responses.flatMap ClientResponse.rows).length ≤ maxRows

/-- What a response violates that comes after these. -/
inductive Violation (maxRows : Nat) (before : List ClientResponse) : ClientResponse → FederatedError → Prop
  | columns {f g : List FieldInfo} {rows : List DataRow}
      (first : before.findSome? ClientResponse.fields? = some f) (other : f.length ≠ g.length) :
      Violation maxRows before (.query g rows) (.schemaMismatch (columnsMismatch f.length g.length))
  | rows {r : ClientResponse}
      (same : ∀ f ∈ before.findSome? ClientResponse.fields?, ∀ g ∈ r.fields?, f.length = g.length)
      (exceed : maxRows < (before.flatMap ClientResponse.rows).length + r.rows.length) :
      Violation maxRows before r (.rowLimitExceeded maxRows)

/-- The first response that is not mergeable with those before it. -/
def FirstViolation (maxRows : Nat) (responses : List ClientResponse) (e : FederatedError) : Prop :=
  ∃ before r after, responses = before ++ r :: after ∧ Mergeable maxRows before ∧ Violation maxRows before r e

/-- The accumulators after these responses. -/
def merged (responses : List ClientResponse) : Option (List FieldInfo) × List DataRow :=
  (responses.findSome? ClientResponse.fields?, responses.flatMap ClientResponse.rows)

section
variable {maxRows : Nat} {before responses : List ClientResponse} {r : ClientResponse}

/-! ### One response -/

theorem merged_concat : merged (before ++ [r]) =
    ((before.findSome? ClientResponse.fields?).or r.fields?, before.flatMap ClientResponse.rows ++ r.rows) := by
  have last : [r].findSome? ClientResponse.fields? = r.fields? := by
    rw [List.findSome?_cons, List.findSome?_nil]
    cases r.fields? <;> rfl
  rw [merged, List.findSome?_append, List.flatMap_append, List.flatMap_singleton, last]

theorem findSome?_mem {f : List FieldInfo} (first : before.findSome? ClientResponse.fields? = some f) :
    f ∈ before.filterMap ClientResponse.fields? := by
  obtain ⟨r, member, found⟩ := List.exists_of_findSome?_eq_some first
  exact List.mem_filterMap.mpr ⟨r, member, found⟩

theorem mergeRows_ok {allRows rows : List DataRow} (fits : allRows.length + rows.length ≤ maxRows) :
    mergeRows maxRows allRows rows = .ok (allRows ++ rows) := by
  induction rows generalizing allRows with
  | nil => rw [mergeRows, List.append_nil]
  | cons row rows ih =>
    rw [List.length_cons] at fits
    rw [mergeRows, if_neg (by omega), ih, List.append_assoc, List.singleton_append]
    rw [List.length_append, List.length_singleton]
    omega

theorem mergeRows_error {allRows rows : List DataRow} (fits : allRows.length ≤ maxRows)
    (exceed : maxRows < allRows.length + rows.length) :
    mergeRows maxRows allRows rows = .error (.rowLimitExceeded maxRows) := by
  induction rows generalizing allRows with
  | nil =>
    rw [List.length_nil] at exceed
    omega
  | cons row rows ih =>
    rw [mergeRows]
    split
    · rfl
    · rename_i room
      apply ih
      · rw [List.length_append, List.length_singleton]
        omega
      · rw [List.length_append, List.length_singleton]
        rw [List.length_cons] at exceed
        omega

/-- Where the columns agree, only the rows are looked at. -/
theorem mergeResponse_same {fields : Option (List FieldInfo)} {allRows : List DataRow}
    (fits : allRows.length ≤ maxRows) (same : ∀ f ∈ fields, ∀ g ∈ r.fields?, f.length = g.length) :
    mergeResponse maxRows (fields, allRows) r =
      if allRows.length + r.rows.length ≤ maxRows then .ok (fields.or r.fields?, allRows ++ r.rows)
      else .error (.rowLimitExceeded maxRows) := by
  cases r with
  | query g rows =>
    have found : mergeRows maxRows allRows rows = if allRows.length + rows.length ≤ maxRows then .ok (allRows ++ rows)
        else .error (.rowLimitExceeded maxRows) := by
      split
      · rename_i room
        exact mergeRows_ok room
      · rename_i full
        exact mergeRows_error fits (Nat.lt_of_not_le full)
    rw [ClientResponse.rows, ClientResponse.fields?]
    cases fields with
    | none =>
      rw [mergeResponse, found]
      split <;> rfl
    | some f =>
      have agree : ¬ f.length ≠ g.length := not_not.mpr (same f rfl g rfl)
      rw [mergeResponse, if_neg agree, found]
      split <;> rfl
  | emptyQuery =>
    simp only [ClientResponse.rows, ClientResponse.fields?, List.length_nil, Nat.add_zero, if_pos fits,
      List.append_nil, Option.or_none]
    rfl
  | execution =>
    simp only [ClientResponse.rows, ClientResponse.fields?, List.length_nil, Nat.add_zero, if_pos fits,
      List.append_nil, Option.or_none]
    rfl

theorem mergeResponse_other {f g : List FieldInfo} {allRows rows : List DataRow} (other : f.length ≠ g.length) :
    mergeResponse maxRows (some f, allRows) (.query g rows) =
      .error (.schemaMismatch (columnsMismatch f.length g.length)) := by
  rw [mergeResponse, if_pos other]

theorem mergeResponse_error_iff {e : FederatedError} (mergeable : Mergeable maxRows before) :
    mergeResponse maxRows (merged before) r = .error e ↔ Violation maxRows before r e := by
  constructor
  · intro failed
    by_cases same : ∀ f ∈ before.findSome? ClientResponse.fields?, ∀ g ∈ r.fields?, f.length = g.length
    · rw [merged, mergeResponse_same mergeable.rows same] at failed
      split at failed
      · cases failed
      · rename_i full
        cases failed
        exact .rows same (Nat.lt_of_not_le full)
    · simp only [not_forall] at same
      obtain ⟨f, first, g, given, other⟩ := same
      cases r with
      | query g' rows =>
        cases given
        rw [merged, Option.mem_def.mp first, mergeResponse_other other] at failed
        cases failed
        exact .columns first other
      | _ => cases given
  · intro violation
    cases violation with
    | columns first other => rw [merged, first, mergeResponse_other other]
    | rows same exceed => rw [merged, mergeResponse_same mergeable.rows same, if_neg (Nat.not_le_of_lt exceed)]

theorem mergeable_concat_iff : Mergeable maxRows (before ++ [r]) ↔ Mergeable maxRows before ∧
    (∀ f ∈ before.findSome? ClientResponse.fields?, ∀ g ∈ r.fields?, f.length = g.length) ∧
      (before.flatMap ClientResponse.rows).length + r.rows.length ≤ maxRows := by
  have inLast : ∀ {g}, g ∈ [r].filterMap ClientResponse.fields? ↔ g ∈ r.fields? := by
    intro g
    rw [List.mem_filterMap]
    simp
  have total : ((before ++ [r]).flatMap ClientResponse.rows).length =
      (before.flatMap ClientResponse.rows).length + r.rows.length := by
    rw [List.flatMap_append, List.flatMap_singleton, List.length_append]
  constructor
  · rintro ⟨columns, rows⟩
    rw [List.filterMap_append] at columns
    rw [total] at rows
    refine ⟨⟨fun f inF g inG => ?_, by omega⟩, fun f first g given => ?_, rows⟩
    · exact columns f (List.mem_append_left _ inF) g (List.mem_append_left _ inG)
    · exact columns f (List.mem_append_left _ (findSome?_mem first)) g (List.mem_append_right _ (inLast.mpr given))
  · rintro ⟨⟨columns, _⟩, same, rows⟩
    have across : ∀ f ∈ before.filterMap ClientResponse.fields?, ∀ g ∈ r.fields?, f.length = g.length := by
      intro f inF g given
      cases first : before.findSome? ClientResponse.fields? with
      | none =>
        obtain ⟨_, member, found⟩ := List.mem_filterMap.mp inF
        rw [List.findSome?_eq_none_iff.mp first _ member] at found
        cases found
      | some f₀ => exact (columns f inF f₀ (findSome?_mem first)).trans (same f₀ first g given)
    refine ⟨?_, by rw [total]; exact rows⟩
    rw [List.filterMap_append]
    intro f inF g inG
    rcases List.mem_append.mp inF with oldF | newF <;> rcases List.mem_append.mp inG with oldG | newG
    · exact columns f oldF g oldG
    · exact across f oldF g (inLast.mp newG)
    · exact (across g oldG f (inLast.mp newF)).symm
    · exact congrArg List.length (Option.mem_unique (inLast.mp newF) (inLast.mp newG))

theorem mergeResponse_ok_iff {next : Option (List FieldInfo) × List DataRow} (mergeable : Mergeable maxRows before) :
    mergeResponse maxRows (merged before) r = .ok next ↔
      Mergeable maxRows (before ++ [r]) ∧ next = merged (before ++ [r]) := by
  rw [merged_concat]
  constructor
  · intro accepted
    by_cases same : ∀ f ∈ before.findSome? ClientResponse.fields?, ∀ g ∈ r.fields?, f.length = g.length
    · rw [merged, mergeResponse_same mergeable.rows same] at accepted
      split at accepted
      · rename_i room
        cases accepted
        exact ⟨mergeable_concat_iff.mpr ⟨mergeable, same, room⟩, rfl⟩
      · cases accepted
    · have impossible : ∃ e, Violation maxRows before r e := by
        simp only [not_forall] at same
        obtain ⟨f, first, g, given, other⟩ := same
        cases r with
        | query g' rows =>
          cases given
          exact ⟨_, .columns first other⟩
        | _ => cases given
      obtain ⟨e, violation⟩ := impossible
      rw [(mergeResponse_error_iff mergeable).mpr violation] at accepted
      cases accepted
  · rintro ⟨whole, rfl⟩
    obtain ⟨_, same, room⟩ := mergeable_concat_iff.mp whole
    rw [merged, mergeResponse_same mergeable.rows same, if_pos room]

/-! ### All responses -/

theorem mergeable_nil : Mergeable maxRows [] := ⟨nofun, Nat.zero_le _⟩

theorem foldlM_merged_iff {all : Option (List FieldInfo) × List DataRow} :
    responses.foldlM (mergeResponse maxRows) (none, []) = .ok all ↔
      Mergeable maxRows responses ∧ all = merged responses := by
  induction responses using List.reverseRecOn generalizing all with
  | nil =>
    constructor
    · intro same
      cases same
      exact ⟨mergeable_nil, rfl⟩
    · rintro ⟨_, rfl⟩
      rfl
  | append_singleton responses r ih =>
    rw [foldlM_concat_ok]
    constructor
    · rintro ⟨before, passed, step⟩
      obtain ⟨mergeable, rfl⟩ := ih.mp passed
      exact (mergeResponse_ok_iff mergeable).mp step
    · rintro ⟨whole, rfl⟩
      have mergeable := (mergeable_concat_iff.mp whole).1
      exact ⟨_, ih.mpr ⟨mergeable, rfl⟩, (mergeResponse_ok_iff mergeable).mpr ⟨whole, rfl⟩⟩

theorem foldlM_violation_iff {e : FederatedError} :
    responses.foldlM (mergeResponse maxRows) (none, []) = .error e ↔ FirstViolation maxRows responses e := by
  rw [foldlM_error_iff]
  constructor
  · rintro ⟨before, r, after, _, split, passed, fails⟩
    obtain ⟨mergeable, rfl⟩ := foldlM_merged_iff.mp passed
    exact ⟨before, r, after, split, mergeable, (mergeResponse_error_iff mergeable).mp fails⟩
  · rintro ⟨before, r, after, split, mergeable, violation⟩
    exact ⟨before, r, after, _, split, foldlM_merged_iff.mpr ⟨mergeable, rfl⟩,
      (mergeResponse_error_iff mergeable).mpr violation⟩

end

section
variable {shardResults : List (Nat × List ClientResponse)} {maxRows : Nat}

theorem mergeQueryResponses_ok_iff {out : List Response} : mergeQueryResponses shardResults maxRows = .ok out ↔
    Mergeable maxRows (shardResults.flatMap Prod.snd) ∧
      out = [.query ((merged (shardResults.flatMap Prod.snd)).1.getD []) (responseRows shardResults)] := by
  have rows : responseRows shardResults = (merged (shardResults.flatMap Prod.snd)).2 := rfl
  rw [mergeQueryResponses, rows]
  constructor
  · intro accepted
    split at accepted
    · cases accepted
    · rename_i folded
      cases accepted
      obtain ⟨mergeable, same⟩ := foldlM_merged_iff.mp folded
      exact ⟨mergeable, by rw [← same]⟩
  · rintro ⟨mergeable, rfl⟩
    rw [foldlM_merged_iff.mpr ⟨mergeable, rfl⟩]

theorem mergeQueryResponses_error_iff {e : FederatedError} : mergeQueryResponses shardResults maxRows = .error e ↔
    FirstViolation maxRows (shardResults.flatMap Prod.snd) e := by
  rw [mergeQueryResponses, ← foldlM_violation_iff]
  constructor
  · intro failed
    split at failed
    · rename_i folded
      cases failed
      exact folded
    · cases failed
  · intro folded
    rw [folded]

end

/-- The responses are merged exactly if all query results have the same number of columns and not too many rows
together; the rows are those of all responses one after the other. Otherwise the first violation is the error. -/
theorem mergeQueryResponses_exact (shardResults : List (Nat × List ClientResponse)) (maxRows : Nat) :
    ((∃ out, mergeQueryResponses shardResults maxRows = .ok out) ↔
      Mergeable maxRows (shardResults.flatMap Prod.snd)) ∧
    (∀ out, mergeQueryResponses shardResults maxRows = .ok out →
      ∃ fields, out = [.query fields (responseRows shardResults)]) ∧
    ∀ e, mergeQueryResponses shardResults maxRows = .error e ↔
      FirstViolation maxRows (shardResults.flatMap Prod.snd) e := by
  refine ⟨⟨?_, ?_⟩, ?_, fun e => mergeQueryResponses_error_iff⟩
  · rintro ⟨out, accepted⟩
    exact (mergeQueryResponses_ok_iff.mp accepted).1
  · intro mergeable
    exact ⟨_, mergeQueryResponses_ok_iff.mpr ⟨mergeable, rfl⟩⟩
  · intro out accepted
    exact ⟨_, (mergeQueryResponses_ok_iff.mp accepted).2⟩

/-! ### Columns -/

/-- Every row is read under the columns that it was sent with, and different columns are a schema mismatch. -/
structure OwnColumns (shardResults : List (Nat × List ClientResponse)) (maxRows : Nat) : Prop where
  read : ∀ fields rows, mergeQueryResponses shardResults maxRows = .ok [.query fields rows] →
    rows = responseRows shardResults ∧
      ∀ r ∈ shardResults.flatMap Prod.snd, r.rows ≠ [] → r.fields? = some fields
  refused : ∀ f ∈ (shardResults.flatMap Prod.snd).filterMap ClientResponse.fields?,
    ∀ g ∈ (shardResults.flatMap Prod.snd).filterMap ClientResponse.fields?, f ≠ g →
      (∀ out, mergeQueryResponses shardResults maxRows ≠ .ok out) ∧
        ((responseRows shardResults).length ≤ maxRows →
          ∃ message, mergeQueryResponses shardResults maxRows = .error (.schemaMismatch message))

/-- All query results have the same columns, by name and type. -/
def SameColumns (responses : List ClientResponse) : Prop :=
  ∀ f ∈ responses.filterMap ClientResponse.fields?, ∀ g ∈ responses.filterMap ClientResponse.fields?, f = g

theorem FirstViolation.columns {maxRows : Nat} {responses : List ClientResponse} {e : FederatedError}
    (first : FirstViolation maxRows responses e) (fits : (responses.flatMap ClientResponse.rows).length ≤ maxRows) :
    ∃ message, e = .schemaMismatch message := by
  obtain ⟨before, r, after, rfl, _, violation⟩ := first
  cases violation with
  | columns => exact ⟨_, rfl⟩
  | rows same exceed =>
    rw [List.flatMap_append, List.flatMap_cons, List.length_append, List.length_append] at fits
    omega

theorem SameColumns.read {responses : List ClientResponse} (same : SameColumns responses) {r : ClientResponse}
    (member : r ∈ responses) (sent : r.rows ≠ []) : r.fields? = some ((merged responses).1.getD []) := by
  cases r with
  | query f rows =>
    have inside : f ∈ responses.filterMap ClientResponse.fields? := List.mem_filterMap.mpr ⟨_, member, rfl⟩
    cases first : responses.findSome? ClientResponse.fields? with
    | none => cases List.findSome?_eq_none_iff.mp first _ member
    | some g =>
      rw [merged, first, Option.getD_some, same g (findSome?_mem first) f inside]
      rfl
  | _ => exact (sent rfl).elim

/-- Only the number of columns is compared, so that rows are read under columns of their own exactly if what
passes this check has the same columns. -/
theorem ownColumns_iff (shardResults : List (Nat × List ClientResponse)) (maxRows : Nat) :
    OwnColumns shardResults maxRows ↔
      (Mergeable maxRows (shardResults.flatMap Prod.snd) → SameColumns (shardResults.flatMap Prod.snd)) := by
  constructor
  · intro own mergeable f inF g inG
    by_contra differ
    exact (own.refused f inF g inG differ).1 _ (mergeQueryResponses_ok_iff.mpr ⟨mergeable, rfl⟩)
  · intro same
    refine ⟨?_, ?_⟩
    · intro fields rows accepted
      obtain ⟨mergeable, result⟩ := mergeQueryResponses_ok_iff.mp accepted
      obtain ⟨rfl, rfl⟩ := Response.query.inj (List.cons.inj result).1
      exact ⟨rfl, fun r member sent => (same mergeable).read member sent⟩
    · intro f inF g inG differ
      have refused : ¬ Mergeable maxRows (shardResults.flatMap Prod.snd) :=
        fun mergeable => differ (same mergeable f inF g inG)
      refine ⟨fun out accepted => refused (mergeQueryResponses_ok_iff.mp accepted).1, fun fits => ?_⟩
      cases failed : mergeQueryResponses shardResults maxRows with
      | ok out => exact (refused (mergeQueryResponses_ok_iff.mp failed).1).elim
      | error e =>
        obtain ⟨message, rfl⟩ := (mergeQueryResponses_error_iff.mp failed).columns fits
        exact ⟨message, rfl⟩

def symbolField : FieldInfo := ⟨"symbol".toList, "varchar".toList⟩

def venueField : FieldInfo := ⟨"venue".toList, "varchar".toList⟩

/-- Two shards that created the same columns in another order. -/
def swappedColumns : List (Nat × List ClientResponse) :=
  [(0, [.query [symbolField, venueField] [[.text "ETH".toList, .text "BITUNIX".toList]]]),
    (1, [.query [venueField, symbolField] [[.text "BITUNIX".toList, .text "BTC".toList]]])]

/-- A venue is read as a symbol. -/
theorem swapped_columns_merged : ¬ OwnColumns swappedColumns 1000 := by
  intro own
  have accepted : mergeQueryResponses swappedColumns 1000 = .ok [.query [symbolField, venueField]
      [[.text "ETH".toList, .text "BITUNIX".toList], [.text "BITUNIX".toList, .text "BTC".toList]]] := rfl
  have second := (own.read _ _ accepted).2 _ (List.mem_cons_of_mem _ List.mem_cons_self) (List.cons_ne_nil _ _)
  exact absurd second (by decide)

end QuestRouter.Federated
