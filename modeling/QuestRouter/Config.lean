import Mathlib.Data.List.AList
import QuestRouter.Text.Str

/-!
# Configuration

The parts of the router configuration that routing reads.
-/

namespace QuestRouter
open Text

/-- A hash map. Where the router iterates over one, the order is a parameter. -/
abbrev HashMap (κ ν : Type) := AList (fun _ : κ => ν)

def HashMap.get {κ ν : Type} [DecidableEq κ] (m : HashMap κ ν) (k : κ) : Option ν := AList.lookup k m

/-- `collect()`: of two entries with one key the later stays. -/
def HashMap.collect {κ ν : Type} [DecidableEq κ] (entries : List (κ × ν)) : HashMap κ ν :=
  entries.foldl (fun m entry => m.insert entry.1 entry.2) ∅

@[simp] theorem HashMap.get_insert {κ ν : Type} [DecidableEq κ] (m : HashMap κ ν) (k : κ) (v : ν) :
    HashMap.get (AList.insert k v m) k = some v := AList.lookup_insert m

theorem HashMap.get_insert_ne {κ ν : Type} [DecidableEq κ] (m : HashMap κ ν) {k k' : κ} (v : ν)
    (different : k' ≠ k) : HashMap.get (AList.insert k v m) k' = m.get k' :=
  AList.lookup_insert_ne different

theorem HashMap.get_erase {κ ν : Type} [DecidableEq κ] (m : HashMap κ ν) (k k' : κ) :
    HashMap.get (AList.erase k m) k' = if k' = k then none else m.get k' := by
  split
  · rename_i same
    rw [same]
    exact AList.lookup_erase k m
  · rename_i different
    exact AList.lookup_erase_ne different

theorem HashMap.get_foldl_const {α κ ν : Type} [DecidableEq κ] (key : α → κ) (n : ν) (entries : List α)
    (m : HashMap κ ν) (k : κ) :
    HashMap.get ((entries.map fun a => (key a, n)).foldl (fun m entry => m.insert entry.1 entry.2) m) k =
      if k ∈ entries.map key then some n else m.get k := by
  induction entries generalizing m with
  | nil => simp
  | cons a entries ih =>
    rw [List.map_cons, List.foldl_cons, ih, List.map_cons]
    by_cases later : k ∈ entries.map key
    · rw [if_pos later, if_pos (List.mem_cons_of_mem _ later)]
    · rw [if_neg later]
      by_cases same : k = key a
      · subst same
        simp
      · rw [HashMap.get_insert_ne _ _ same, if_neg (by simpa [same] using later)]

theorem HashMap.get_collect_const {α κ ν : Type} [DecidableEq κ] (key : α → κ) (n : ν) (entries : List α) (k : κ) :
    HashMap.get (.collect (entries.map fun a => (key a, n))) k = if k ∈ entries.map key then some n else none :=
  HashMap.get_foldl_const key n entries ∅ k

theorem HashMap.get_collect {κ ν : Type} [DecidableEq κ] (entries : List (κ × ν)) (k : κ) :
    HashMap.get (.collect entries) k = (entries.reverse.find? fun entry => entry.1 = k).map Prod.snd := by
  rw [HashMap.collect, List.foldl_eq_foldr_reverse]
  induction entries.reverse with
  | nil => rfl
  | cons entry rest ih =>
    rw [List.foldr_cons, List.find?_cons]
    by_cases same : entry.1 = k
    · simp [same]
    · rw [HashMap.get_insert_ne _ _ (Ne.symm same), ih]
      simp [same]

theorem HashMap.mem_collect {κ ν : Type} [DecidableEq κ] (entries : List (κ × ν)) (k : κ) :
    k ∈ HashMap.collect entries ↔ k ∈ entries.map Prod.fst := by
  have folded : ∀ m : HashMap κ ν, k ∈ entries.foldl (fun m entry => AList.insert entry.1 entry.2 m) m ↔
      k ∈ m ∨ k ∈ entries.map Prod.fst := by
    induction entries with
    | nil => simp
    | cons entry entries ih =>
      intro m
      rw [List.foldl_cons, ih, AList.mem_insert, List.map_cons, List.mem_cons]
      tauto
  rw [HashMap.collect, folded]
  exact or_iff_right (AList.notMem_empty k)

structure ShardConfig where
  id : Nat
  ilpAddress : Str
  pgAddress : Str
  weight : Nat
  virtualNodes : Nat
  deriving DecidableEq, Repr

structure TableRoutingConfig where
  name : Str
  sharded : Bool
  shardKey : Option Str
  deriving DecidableEq, Repr

end QuestRouter
