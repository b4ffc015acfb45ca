import Mathlib.Logic.Function.Basic

/-!
# Files

Regular files by path, and operations on them that can stop half way. A write truncates its file and may
leave any part of the data from the front; a rename happens or does not. A path names a file or it does not,
and only one that does can be written.
-/

namespace QuestRouter.Data

/-- What each path holds. -/
abbrev Files (P α : Type) := P → Option (List α)

namespace Files

variable {P α : Type} [DecidableEq P]

inductive Operation (P α : Type) where
  /-- Directories are created; no file is touched. -/
  | createDirs
  | write (path : P) (data : List α)
  | rename (source target : P)

variable (names : P → Prop)

/-- The operation succeeds. -/
inductive Done : Operation P α → Files P α → Files P α → Prop
  | createDirs {fs : Files P α} : Done .createDirs fs fs
  | write {fs : Files P α} {path : P} {data : List α} (named : names path) :
      Done (.write path data) fs (Function.update fs path (some data))
  | rename {fs : Files P α} {source target : P} {data : List α} (named : names target) (there : fs source = some data) :
      Done (.rename source target) fs (Function.update (Function.update fs source none) target (some data))

/-- The operation fails, or the program stops in it. -/
inductive Cut : Operation P α → Files P α → Files P α → Prop
  | untouched {fs : Files P α} {op : Operation P α} : Cut op fs fs
  | torn {fs : Files P α} {path : P} {data part : List α} (named : names path) (front : part <+: data) :
      Cut (.write path data) fs (Function.update fs path (some part))

inductive AllDone : List (Operation P α) → Files P α → Files P α → Prop
  | nil {fs : Files P α} : AllDone [] fs fs
  | cons {fs gs hs : Files P α} {op : Operation P α} {ops : List (Operation P α)} (first : Done names op fs gs)
      (rest : AllDone ops gs hs) : AllDone (op :: ops) fs hs

/-- One of the operations is cut, after those before it have succeeded. -/
inductive CutShort : List (Operation P α) → Files P α → Files P α → Prop
  | here {fs gs : Files P α} {op : Operation P α} {ops : List (Operation P α)} (cut : Cut names op fs gs) :
      CutShort (op :: ops) fs gs
  | later {fs gs hs : Files P α} {op : Operation P α} {ops : List (Operation P α)} (first : Done names op fs gs)
      (rest : CutShort ops gs hs) : CutShort (op :: ops) fs hs

variable {names} {fs gs : Files P α} {path tmp : P} {data : List α}

theorem cut_elsewhere (apart : tmp ≠ path) (cut : Cut names (.write tmp data) fs gs) : gs path = fs path := by
  cases cut with
  | untouched => rfl
  | torn => exact Function.update_of_ne apart.symm _ _

/-! ### Replacing a file by a rename -/

/-- The data is written beside the file, and takes its name when it is whole. -/
def replacing (tmp path : P) (data : List α) : List (Operation P α) :=
  [.createDirs, .write tmp data, .rename tmp path]

theorem replacing_done (done : AllDone names (replacing tmp path data) fs gs) : gs path = some data := by
  obtain ⟨⟩ | ⟨first, done⟩ := done
  obtain ⟨⟩ | ⟨second, done⟩ := done
  obtain ⟨⟩ | ⟨third, done⟩ := done
  cases first
  cases second
  cases done
  cases third with
  | rename named there =>
    rw [Function.update_self] at there
    rw [Function.update_self, there]

/-- Cut short, the replacement leaves the file as it was. -/
theorem replacing_cut (apart : tmp ≠ path) (cut : CutShort names (replacing tmp path data) fs gs) :
    gs path = fs path := by
  cases cut with
  | here cut =>
    cases cut
    rfl
  | later first cut =>
    cases first
    cases cut with
    | here cut => exact cut_elsewhere apart cut
    | later second cut =>
      cases second
      cases cut with
      | here cut =>
        cases cut
        exact Function.update_of_ne apart.symm _ _
      | later third cut => cases cut

/-- A path that names no file stays empty or is left as it is. -/
theorem replacing_unnamed (unnamed : ¬ names tmp) :
    ¬ AllDone names (replacing tmp path data) fs gs ∧
      (CutShort names (replacing tmp path data) fs gs → gs = fs) := by
  constructor
  · intro done
    obtain ⟨⟩ | ⟨first, done⟩ := done
    obtain ⟨⟩ | ⟨second, done⟩ := done
    cases second with
    | write named => exact unnamed named
  · intro cut
    cases cut with
    | here cut =>
      cases cut
      rfl
    | later first cut =>
      cases first
      cases cut with
      | here cut =>
        cases cut with
        | untouched => rfl
        | torn named => exact (unnamed named).elim
      | later second cut =>
        cases second with
        | write named => exact (unnamed named).elim

/-- Written in place, the file can be replaced as well. -/
theorem replacing_self (named : names path) (data : List α) (fs : Files P α) :
    AllDone names (replacing path path data) fs (Function.update fs path (some data)) := by
  have written : Function.update fs path (some data) path = some data := Function.update_self ..
  have renamed : Done names (.rename path path) _ _ := .rename named written
  rw [Function.update_idem, Function.update_idem] at renamed
  exact .cons .createDirs (.cons (.write named) (.cons renamed .nil))

/-- But a cut may leave it empty. -/
theorem replacing_self_torn (named : names path) (data : List α) (fs : Files P α) :
    CutShort names (replacing path path data) fs (Function.update fs path (some [])) :=
  .later .createDirs (.here (.torn named List.nil_prefix))

end Files
end QuestRouter.Data
