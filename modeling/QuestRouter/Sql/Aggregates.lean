import QuestRouter.Data.Repeated
import QuestRouter.Sql.Answer

/-!
# Aggregates over a whole table

A query that aggregates and has no keys to group by has one result, whatever rows there are. Its cells are
those of its aggregates over the rows that satisfy the condition.
-/

namespace QuestRouter.Sql
open Text

def callOn (name : Str) (distinct : Bool) (e : Expr) : Function :=
  { name, args := .list distinct [.unnamed e] }

namespace Meaning
variable {m : Meaning}

/-! ### One group -/

/-- All rows that satisfy the condition are one group, of which nothing is asked. -/
structure Keyless (m : Meaning) (q : Query) (select : Select) : Prop where
  plain : isPlain q select = true
  grouped : m.isGrouped q select = true
  keys : m.groupKeys select = []
  having : select.having = none
  qualify : select.qualify = none

def wholeScope (m : Meaning) (tables : Tables) (select : Select) : Scope :=
  ⟨tables, [m.filtered tables select], m.filtered tables select, (m.filtered tables select).headD nullRecord⟩

def wholeRow (m : Meaning) (tables : Tables) (q : Query) (select : Select) : OutputRow :=
  m.resultRow q select (m.wholeScope tables select)

section
variable {q : Query} {select : Select}

theorem Keyless.results (keyless : m.Keyless q select) (tables : Tables) :
    m.results tables q select = [m.wholeRow tables q select] := by
  have one : m.keptGroups tables q select = [m.filtered tables select] := by
    rw [keptGroups, keyless.grouped, keyless.keys, keyless.having]
    simp [groups, passes]
  rw [Meaning.results, scopes, one, keyless.qualify]
  simp [passes, wholeRow, wholeScope]

theorem distinctRows_one (select : Select) (row : OutputRow) : distinctRows select [row] = [row] := by
  unfold distinctRows
  split
  · rw [List.eraseDupsBy_cons, List.filter_nil]
    rfl
  · rfl

theorem Keyless.isAnswer (keyless : m.Keyless q select) (noWith : q.withClause = false)
    (body : q.body = .select select) {tables : Tables} {out : Answer} :
    m.IsAnswer tables q out ↔
      out = (m.sliced tables q select [m.wholeRow tables q select]).map OutputRow.cells := by
  rw [isAnswer_select noWith body keyless.plain, keyless.results]
  constructor
  · rintro ⟨sorted, perm, _, rfl⟩
    rw [List.perm_singleton.mp perm, distinctRows_one]
  · rintro rfl
    refine ⟨[m.wholeRow tables q select], .refl _, fun _ _ => List.pairwise_singleton _ _, ?_⟩
    rw [distinctRows_one]

/-- One row is kept, whatever it is. -/
def Keeps (m : Meaning) (tables : Tables) (q : Query) (select : Select) : Prop :=
  ∀ row, m.sliced tables q select [row] = [row]

def Drops (m : Meaning) (tables : Tables) (q : Query) (select : Select) : Prop :=
  ∀ row, m.sliced tables q select [row] = []

theorem keeps_or_drops (m : Meaning) (tables : Tables) (q : Query) (select : Select) :
    m.Keeps tables q select ∨ m.Drops tables q select := by
  have cut : ∀ from_ count : Nat, (∀ row : OutputRow, ([row].drop from_).take count = [row] ∧
        ([row].drop from_).drop count = []) ∨
      ∀ row : OutputRow, ([row].drop from_).take count = [] := by
    intro from_ count
    cases from_ <;> cases count <;> simp
  have none_tied : ∀ last, m.tiedWith q last [] = [] := by
    intro last
    unfold tiedWith
    split <;> rfl
  unfold Keeps Drops sliced
  split
  · exact .inl fun _ => rfl
  · dsimp only [List.length_singleton]
    generalize m.slice select.top q.limitClause q.fetch (m.evalAll (cutExprs q select) ⟨tables, [], [], nullRecord⟩) 1 =
      from_count
    rcases cut from_count.1 from_count.2 with keeps | drops
    · left
      intro row
      rw [(keeps row).1, (keeps row).2, none_tied]
      simp
    · right
      intro row
      rw [drops row]
      simp [tiedWith]

theorem Keeps.not_drops {tables : Tables} (keeps : m.Keeps tables q select) : ¬ m.Drops tables q select := by
  intro drops
  have kept := keeps ⟨[], [], []⟩
  rw [drops] at kept
  cases kept

theorem Keyless.isAnswer_kept (keyless : m.Keyless q select) (noWith : q.withClause = false)
    (body : q.body = .select select) {tables : Tables} (keeps : m.Keeps tables q select) {out : Answer} :
    m.IsAnswer tables q out ↔ out = [(m.wholeRow tables q select).cells] := by
  rw [keyless.isAnswer noWith body, keeps]
  rfl

theorem Keyless.isAnswer_dropped (keyless : m.Keyless q select) (noWith : q.withClause = false)
    (body : q.body = .select select) {tables : Tables} (drops : m.Drops tables q select) {out : Answer} :
    m.IsAnswer tables q out ↔ out = [] := by
  rw [keyless.isAnswer noWith body, drops]
  rfl

end

/-! ### Calls -/

def arity : FunctionArguments → Nat
  | .none => 0
  | .subquery _ => 1
  | .list _ args => args.length

theorem evalArguments_length (args : FunctionArguments) (s : Scope) :
    (m.evalArguments args s).length = arity args := by
  cases args with
  | none => rw [evalArguments]; rfl
  | subquery q => rw [evalArguments]; rfl
  | list distinct args =>
    rw [evalArguments, arity]
    induction args with
    | nil =>
      rw [evalArgs]
      rfl
    | cons arg args ih => rw [evalArgs, List.length_cons, List.length_cons, ih]

/-- An aggregate whose arguments and condition look at one row at a time. -/
structure IsBareCall (m : Meaning) (f : Function) : Prop where
  overClause : f.overClause = none
  clauses : f.clauses = []
  aggregates : m.aggregates f.name = true
  inner : ∀ g ∈ f.args.calls ++ callsOfOption f.filter, m.isScalarCall g = true

/-- The arguments on each row that the call counts. -/
def argumentRows (m : Meaning) (f : Function) (tables : Tables) (rows : List Record) : List (List Cell) :=
  (rows.filter fun row => m.passes f.filter ⟨tables, [], [], row⟩).map fun row =>
    m.evalArguments f.args ⟨tables, [], [], row⟩

theorem IsBareCall.hasAggregate {f : Function} (call : m.IsBareCall f) : m.hasAggregate (.function f) = true := by
  obtain ⟨name, args, filter, overClause, clauses⟩ := f
  obtain ⟨overClause', _, aggregates, _⟩ := call
  simp only at overClause' aggregates
  rw [Meaning.hasAggregate, Expr.calls, Function.calls, List.any_cons, overClause', aggregates]
  rfl

/-- What looks at one row at a time has the same value in a group and outside. -/
theorem alike_row {queries : List Query} {calls : List Function} (scalar : ∀ g ∈ calls, m.isScalarCall g = true)
    (s : Scope) (row : Record) : m.Alike queries calls ⟨s.tables, [], [], row⟩ { s with row } :=
  ⟨rfl, fun _ _ _ _ => rfl, .inr scalar, .inr fun g member => overClause_of_isScalarCall (scalar g member)⟩

theorem IsBareCall.eval {f : Function} (call : m.IsBareCall f) (s : Scope) :
    m.eval (.function f) s = m.aggregated f.name f.args.distinct (m.argumentRows f s.tables s.group) := by
  obtain ⟨name, args, filter, overClause, clauses⟩ := f
  obtain ⟨overClause', clauses', aggregates, inner⟩ := call
  simp only at overClause' clauses' aggregates inner
  have condition : ∀ row, m.passes filter { s with row } = m.passes filter ⟨s.tables, [], [], row⟩ :=
    fun row => passes_congr filter (alike_row (fun g member => inner g (List.mem_append_right _ member)) s row)
  have values : ∀ row, m.evalArguments args { s with row } = m.evalArguments args ⟨s.tables, [], [], row⟩ :=
    fun row => evalArguments_congr args (alike_row (fun g member => inner g (List.mem_append_left _ member)) s row)
  rw [Meaning.eval, evalFunction, overClause', clauses', aggregates]
  simp only [Option.isSome_none, List.isEmpty_nil, Bool.not_true, Bool.false_eq_true, if_false, if_true, condition,
    values]
  rfl

theorem argumentRows_flatMap (f : Function) (tables : Tables) (ids : List Nat) (rows : Nat → List Record) :
    m.argumentRows f tables (ids.flatMap rows) = ids.flatMap fun id => m.argumentRows f tables (rows id) := by
  rw [argumentRows, List.filter_flatMap, List.map_flatMap]
  rfl

theorem argumentRows_same {f : Function} {queries : List Query} {rows : List Record} {tables tables' : Tables}
    (same : m.SameOn queries rows tables tables') (nested : f.nestedQueries ⊆ queries) :
    m.argumentRows f tables' rows = m.argumentRows f tables rows := by
  obtain ⟨name, args, filter, overClause, clauses⟩ := f
  rw [Function.nestedQueries] at nested
  have alike : ∀ row ∈ rows, ∀ {queries' : List Query}, queries' ⊆ queries → ∀ calls,
      m.Alike queries' calls ⟨tables, [], [], row⟩ ⟨tables', [], [], row⟩ :=
    fun row member _ fewer _ => ⟨rfl, same.mono fewer (List.cons_subset.mpr ⟨member, List.nil_subset _⟩),
      .inl ⟨rfl, sameOn_nil⟩, .inl ⟨rfl, sameOn_nil⟩⟩
  have condition : ∀ row ∈ rows, m.passes filter ⟨tables', [], [], row⟩ = m.passes filter ⟨tables, [], [], row⟩ :=
    fun row member => passes_congr filter (alike row member (fun q inside =>
      nested (List.mem_append_right _ (List.mem_append_left _ inside))) _)
  have values : ∀ row ∈ rows, m.evalArguments args ⟨tables', [], [], row⟩ =
      m.evalArguments args ⟨tables, [], [], row⟩ :=
    fun row member => evalArguments_congr args (alike row member (fun q inside =>
      nested (List.mem_append_left _ inside)) _)
  rw [argumentRows, argumentRows, List.filter_congr condition]
  exact List.map_congr_left fun row member => values row (List.mem_of_mem_filter member)

/-! ### Values in parts -/

def seen (distinct : Bool) (rows : List (List Cell)) : List Cell :=
  (if distinct then rows.dedup else rows).map argument

theorem seen_subset (distinct : Bool) (rows : List (List Cell)) : seen distinct rows ⊆ rows.map argument := by
  unfold seen
  split
  · exact List.map_subset _ (List.dedup_subset rows)
  · exact fun _ member => member

theorem aggregated_value {name : Str} {fn : SetFunction} {rows : List (List Cell)} (distinct : Bool)
    (known : setFunction name = some fn) (few : ∀ args ∈ rows, args.length ≤ 1)
    (covered : fn.covers (rows.map argument) = true) :
    m.aggregated name distinct rows = fn.value (seen distinct rows) := by
  have covers : fn.covers (seen distinct rows) = true := SetFunction.covers_mono covered (seen_subset distinct rows)
  have short : (if distinct then rows.dedup else rows).all (·.length ≤ 1) = true := by
    rw [List.all_eq_true]
    intro args member
    have inside : args ∈ rows := by
      split at member
      · exact List.mem_dedup.mp member
      · exact member
    exact decide_eq_true (few args inside)
  unfold aggregated
  simp only [known]
  rw [if_pos]
  · rfl
  · rw [Bool.and_eq_true]
    exact ⟨short, covers⟩

theorem seen_parts_perm (parts : List (List (List Cell))) :
    (seen true parts.flatten ++ (Data.repeated parts).map argument).Perm (parts.map (seen true)).flatten := by
  have cells : (parts.map (seen true)).flatten = (parts.map List.dedup).flatten.map argument := by
    rw [List.map_flatten, List.map_map]
    rfl
  have whole : seen true parts.flatten = parts.flatten.dedup.map argument := rfl
  rw [cells, whole, ← List.map_append]
  exact (Data.dedup_flatten_perm parts).map argument

theorem value_seen_flatten_iff {fn : SetFunction} (notAvg : fn ≠ .avg) (distinct : Bool)
    (parts : List (List (List Cell))) :
    fn.value (parts.map (seen distinct)).flatten = fn.value (seen distinct parts.flatten) ↔
      (distinct = true → fn.AddsNothing ((Data.repeated parts).map argument)) := by
  cases distinct with
  | false =>
    have cells : seen false parts.flatten = (parts.map (seen false)).flatten := List.map_flatten
    rw [cells]
    exact iff_of_true rfl nofun
  | true =>
    have old : (Data.repeated parts).map argument ⊆ seen true parts.flatten := by
      apply List.map_subset
      intro args again
      exact List.mem_dedup.mpr (Data.mem_of_mem_repeated again)
    rw [← fn.value_perm (seen_parts_perm parts), SetFunction.value_append_iff notAvg old]
    exact ⟨fun nothing _ => nothing, fun nothing => nothing rfl⟩

/-! ### Calls with one argument -/

def exprCells (m : Meaning) (select : Select) (e : Expr) (tables : Tables) : List Cell :=
  (m.filtered tables select).map fun row => m.eval e ⟨tables, [], [], row⟩

theorem isBareCall_callOn {name : Str} {fn : SetFunction} {distinct : Bool} {e : Expr}
    (known : setFunction name = some fn) (scalar : ∀ g ∈ e.calls, m.isScalarCall g = true) :
    m.IsBareCall (callOn name distinct e) where
  overClause := rfl
  clauses := rfl
  aggregates := by
    rw [callOn, aggregates, known]
    rfl
  inner g member := by
    simp only [callOn, FunctionArguments.calls, callsOfArgs, FunctionArg.calls, callsOfOption, List.append_nil] at member
    exact scalar g member

theorem argumentRows_callOn (name : Str) (distinct : Bool) (e : Expr) (tables : Tables) (rows : List Record) :
    m.argumentRows (callOn name distinct e) tables rows = rows.map fun row => [m.eval e ⟨tables, [], [], row⟩] := by
  simp [argumentRows, callOn, passes, evalArguments, evalArgs, evalArg]

theorem aggregated_callOn {name : Str} {fn : SetFunction} {select : Select} {e : Expr} {tables : Tables}
    (known : setFunction name = some fn) (covered : fn.covers (m.exprCells select e tables) = true) :
    m.aggregated name false (m.argumentRows (callOn name false e) tables (m.filtered tables select)) =
      fn.value (m.exprCells select e tables) := by
  have cells : (m.argumentRows (callOn name false e) tables (m.filtered tables select)).map argument =
      m.exprCells select e tables := by
    rw [argumentRows_callOn, List.map_map]
    rfl
  have few : ∀ args ∈ m.argumentRows (callOn name false e) tables (m.filtered tables select), args.length ≤ 1 := by
    rw [argumentRows_callOn]
    intro args member
    obtain ⟨row, _, rfl⟩ := List.mem_map.mp member
    exact Nat.le_refl 1
  rw [aggregated_value false known few (by rwa [cells])]
  exact congrArg fn.value cells

/-! ### Aggregates alone -/

/-- The statement has only these calls as its items, no keys and no condition on its groups. -/
structure OnlyCalls (m : Meaning) (q : Query) (select : Select) (fs : List Function) : Prop where
  plain : isPlain q select = true
  projection : select.projection = fs.map fun f => .unnamedExpr (.function f)
  present : fs ≠ []
  groupBy : select.groupBy = .expressions []
  having : select.having = none
  qualify : select.qualify = none
  bare : ∀ f ∈ fs, m.IsBareCall f

theorem OnlyCalls.keyless {q : Query} {select : Select} {fs : List Function} (only : m.OnlyCalls q select fs) :
    m.Keyless q select where
  plain := only.plain
  grouped := by
    obtain ⟨f, fs, rfl⟩ := List.exists_cons_of_ne_nil only.present
    have first := (only.bare f List.mem_cons_self).hasAggregate
    have aggregates : (m.resultExprs q select).any m.hasAggregate = true := by
      rw [resultExprs, only.projection]
      exact List.any_eq_true.mpr ⟨_, List.mem_append_left _ List.mem_cons_self, first⟩
    rw [isGrouped, aggregates, Bool.or_true]
  keys := by
    have none : (m.outputs select).filter (!m.hasAggregate ·) = [] := by
      rw [List.filter_eq_nil_iff, outputs, only.projection]
      intro e member
      obtain ⟨item, listed, inside⟩ := List.mem_flatMap.mp member
      obtain ⟨f, called, rfl⟩ := List.mem_map.mp listed
      obtain rfl := List.mem_singleton.mp inside
      simp [(only.bare f called).hasAggregate]
    rw [groupKeys, only.groupBy]
    exact none
  having := only.having
  qualify := only.qualify

theorem OnlyCalls.cells {q : Query} {select : Select} {fs : List Function} (only : m.OnlyCalls q select fs)
    (tables : Tables) : (m.wholeRow tables q select).cells =
      fs.map fun f => m.aggregated f.name f.args.distinct (m.argumentRows f tables (m.filtered tables select)) := by
  rw [wholeRow, resultRow, outputCells, only.projection, List.flatMap_map, List.map_eq_flatMap]
  apply List.flatMap_congr
  intro f member
  exact congrArg ([·]) ((only.bare f member).eval _)

end Meaning
end QuestRouter.Sql
