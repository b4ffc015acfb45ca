import Mathlib.Data.List.MinMax
import QuestRouter.Config

/-!
# Shard ring

Consistent hashing over weighted virtual nodes. The `hashring` crate is a parameter: it answers
each probe with one of the virtual nodes it was given, or with none.
-/

namespace QuestRouter.Routing
open Text

structure VNode where
  shardId : Nat
  vnodeId : Nat
  deriving DecidableEq, Repr

/-- What is hashed: a key, or a key with the number of the attempt that salts it. -/
inductive Probe where
  | key (key : Str)
  | salted (key : Str) (attempt : Nat)
  deriving DecidableEq, Repr

structure ShardRing where
  ring : Probe → Option VNode
  shards : List ShardConfig

def effectiveVnodeCount (shard : ShardConfig) : Nat :=
  min (max shard.weight 1 * max shard.virtualNodes 1) (2 ^ 32 - 1)

/-- The virtual nodes in the order in which they are added to the ring. -/
def vnodes (shards : List ShardConfig) : List VNode :=
  shards.flatMap fun shard => (List.range (effectiveVnodeCount shard)).map (⟨shard.id, ·⟩)

namespace ShardRing

def fromShards (hashring : List VNode → Probe → Option VNode) (shards : List ShardConfig) :
    ShardRing := ⟨hashring (vnodes shards), shards⟩

def shardCount (r : ShardRing) : Nat := r.shards.length

def vnodeCount (r : ShardRing) : Nat := (r.shards.map effectiveVnodeCount).sum

def shardById (r : ShardRing) (id : Nat) : Option ShardConfig := r.shards.find? (·.id == id)

def shardByKey (r : ShardRing) (key : Str) : Option ShardConfig :=
  if r.shards.isEmpty then none
  else (r.ring (.key key)).bind fun vnode => r.shardById vnode.shardId

/-- The first salted probe that lands on a shard not excluded. -/
def probe (r : ShardRing) (key : Str) (isExcluded : Nat → Bool) : Option ShardConfig :=
  (List.range' 1 (max r.vnodeCount 1)).findSome? fun attempt =>
    (r.ring (.salted key attempt)).bind fun vnode =>
      if isExcluded vnode.shardId then none else r.shardById vnode.shardId

def shardByKeyFiltered (r : ShardRing) (key : Str) (isExcluded : Nat → Bool) : Option ShardConfig :=
  if r.shards.isEmpty then none
  else
    match (r.shardByKey key).filter fun shard => !isExcluded shard.id with
    | some shard => some shard
    | none =>
      match r.probe key isExcluded with
      | some shard => some shard
      | none => (r.shards.filter fun shard => !isExcluded shard.id).argmin (·.id)

theorem shardById_mem {r : ShardRing} {id : Nat} {shard : ShardConfig}
    (h : r.shardById id = some shard) : shard ∈ r.shards ∧ shard.id = id :=
  ⟨List.mem_of_find?_eq_some h, by simpa using List.find?_some h⟩

theorem shardByKey_mem {r : ShardRing} {key : Str} {shard : ShardConfig}
    (h : r.shardByKey key = some shard) : shard ∈ r.shards := by
  unfold shardByKey at h
  split at h
  · cases h
  · obtain ⟨vnode, _, found⟩ := Option.bind_eq_some_iff.mp h
    exact (shardById_mem found).1

theorem probe_spec {r : ShardRing} {key : Str} {isExcluded : Nat → Bool} {shard : ShardConfig}
    (h : r.probe key isExcluded = some shard) : shard ∈ r.shards ∧ isExcluded shard.id = false := by
  obtain ⟨attempt, _, found⟩ := List.exists_of_findSome?_eq_some h
  obtain ⟨vnode, _, found⟩ := Option.bind_eq_some_iff.mp found
  split at found
  · cases found
  · rename_i included
    obtain ⟨member, same⟩ := shardById_mem found
    exact ⟨member, by simpa [same] using included⟩

theorem shardByKeyFiltered_spec {r : ShardRing} {key : Str} {isExcluded : Nat → Bool}
    {shard : ShardConfig} (h : r.shardByKeyFiltered key isExcluded = some shard) :
    shard ∈ r.shards ∧ isExcluded shard.id = false := by
  unfold shardByKeyFiltered at h
  split at h
  · cases h
  split at h
  · rename_i primary
    obtain rfl := Option.some.inj h
    obtain ⟨found, included⟩ := Option.filter_eq_some_iff.mp primary
    exact ⟨shardByKey_mem found, by simpa using included⟩
  split at h
  · rename_i probed
    obtain rfl := Option.some.inj h
    exact probe_spec probed
  · have member := List.mem_filter.mp (List.argmin_mem h)
    exact ⟨member.1, by simpa using member.2⟩

theorem probe_congr {r : ShardRing} (key : Str) {f g : Nat → Bool}
    (same : ∀ shard ∈ r.shards, f shard.id = g shard.id) : r.probe key f = r.probe key g := by
  unfold probe
  congr 1
  funext attempt
  cases r.ring (.salted key attempt) with
  | none => rfl
  | some vnode =>
    simp only [Option.bind_some]
    cases found : r.shardById vnode.shardId with
    | none => split <;> split <;> rfl
    | some shard =>
      obtain ⟨member, id⟩ := shardById_mem found
      rw [← id, same shard member]

theorem shardByKeyFiltered_congr {r : ShardRing} (key : Str) {f g : Nat → Bool}
    (same : ∀ shard ∈ r.shards, f shard.id = g shard.id) :
    r.shardByKeyFiltered key f = r.shardByKeyFiltered key g := by
  have primary : (r.shardByKey key).filter (fun shard => !f shard.id) =
      (r.shardByKey key).filter fun shard => !g shard.id := by
    cases found : r.shardByKey key with
    | none => rfl
    | some shard => simp only [Option.filter_some, same shard (shardByKey_mem found)]
  have rest : (r.shards.filter fun shard => !f shard.id) = r.shards.filter fun shard => !g shard.id :=
    List.filter_congr fun shard member => by rw [same shard member]
  simp only [shardByKeyFiltered, primary, probe_congr key same, rest]

end ShardRing
end QuestRouter.Routing
