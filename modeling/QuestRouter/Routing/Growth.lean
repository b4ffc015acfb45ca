import Mathlib.Data.List.Forall2
import Mathlib.Data.Nat.Pairing
import QuestRouter.Data.Circle
import QuestRouter.Routing.Ring

/-!
# Growth of the ring

When shards are added, or have their weight or their number of virtual nodes raised, the virtual nodes that were
there stay. So a key stays with its shard or goes to one that was added or has more virtual nodes. The ring
crate is taken to place nodes on a circle and to return the successor of the key.
-/

namespace QuestRouter.Routing
open Text Data

/-- `HashRing::get` on a ring of these nodes. -/
def hashRing (hashNode : VNode → Nat) (hashProbe : Probe → Nat) (nodes : List VNode) (probe : Probe) : Option VNode :=
  Circle.successor hashNode nodes (hashProbe probe)

/-- The same shard, with as much weight and as many virtual nodes or more. -/
structure Raised (s t : ShardConfig) : Prop where
  id : t.id = s.id
  ilpAddress : t.ilpAddress = s.ilpAddress
  pgAddress : t.pgAddress = s.pgAddress
  weight : s.weight ≤ t.weight
  virtualNodes : s.virtualNodes ≤ t.virtualNodes

/-- Shards are raised and shards with new ids are appended. -/
def Grows (before after : List ShardConfig) : Prop :=
  ∃ raised added, after = raised ++ added ∧ List.Forall₂ Raised before raised ∧ (after.map (·.id)).Nodup

/-- No two virtual nodes of the shards have one hash. -/
def DistinctHashes (hashNode : VNode → Nat) (shards : List ShardConfig) : Prop :=
  Set.InjOn hashNode {node | node ∈ vnodes shards}

def Added (before after : List ShardConfig) (t : ShardConfig) : Prop := t ∈ after ∧ t.id ∉ before.map (·.id)

def Enlarged (before : List ShardConfig) (t : ShardConfig) : Prop :=
  ∃ s ∈ before, Raised s t ∧ effectiveVnodeCount s < effectiveVnodeCount t

/-- The key has the shard it had before, or one that was added or enlarged. -/
def StaysOrMoves (hashring : List VNode → Probe → Option VNode) (before after : List ShardConfig) (key : Str) : Prop :=
  match (ShardRing.fromShards hashring after).shardByKey key with
  | none => (ShardRing.fromShards hashring before).shardByKey key = none
  | some t =>
    (∃ s, (ShardRing.fromShards hashring before).shardByKey key = some s ∧ Raised s t) ∨
      Added before after t ∨ Enlarged before t

/-! ### Virtual nodes -/

theorem effectiveVnodeCount_mono {s t : ShardConfig} (raised : Raised s t) :
    effectiveVnodeCount s ≤ effectiveVnodeCount t := by
  have product := Nat.mul_le_mul (max_le_max_right 1 raised.weight) (max_le_max_right 1 raised.virtualNodes)
  exact min_le_min_right _ product

theorem effectiveVnodeCount_pos (s : ShardConfig) : 0 < effectiveVnodeCount s := by
  have product : 0 < max s.weight 1 * max s.virtualNodes 1 := Nat.mul_pos (by omega) (by omega)
  unfold effectiveVnodeCount
  omega

theorem mem_vnodes {shards : List ShardConfig} {node : VNode} :
    node ∈ vnodes shards ↔ ∃ s ∈ shards, node.shardId = s.id ∧ node.vnodeId < effectiveVnodeCount s := by
  obtain ⟨shardId, vnodeId⟩ := node
  simp only [vnodes, List.mem_flatMap, List.mem_map, List.mem_range, VNode.mk.injEq]
  constructor
  · rintro ⟨s, member, n, below, rfl, rfl⟩
    exact ⟨s, member, rfl, below⟩
  · rintro ⟨s, member, rfl, below⟩
    exact ⟨s, member, vnodeId, below, rfl, rfl⟩

theorem vnodes_ne_nil {shards : List ShardConfig} (nonempty : shards ≠ []) : vnodes shards ≠ [] := by
  obtain ⟨s, rest, rfl⟩ := List.exists_cons_of_ne_nil nonempty
  exact List.ne_nil_of_mem (mem_vnodes.mpr ⟨s, List.mem_cons_self, rfl, effectiveVnodeCount_pos s⟩ : (⟨s.id, 0⟩ : VNode) ∈ _)

variable {before after : List ShardConfig}

theorem Grows.distinct_before (grows : Grows before after) : (before.map (·.id)).Nodup := by
  obtain ⟨raised, added, rfl, pairs, nodup⟩ := grows
  have same : before.map (·.id) = raised.map (·.id) := by
    induction pairs with
    | nil => rfl
    | cons pair _ ih =>
      rw [List.map_cons, List.map_cons, pair.id]
      refine congrArg _ (ih ?_)
      rw [List.cons_append, List.map_cons] at nodup
      exact (List.nodup_cons.mp nodup).2
  rw [same]
  rw [List.map_append] at nodup
  exact nodup.of_append_left

theorem Grows.raised (grows : Grows before after) {s : ShardConfig} (member : s ∈ before) : ∃ t ∈ after, Raised s t := by
  obtain ⟨raised, added, rfl, pairs, -⟩ := grows
  have paired : ∃ t ∈ raised, Raised s t := by
    induction pairs with
    | nil => cases member
    | cons pair _ ih =>
      rcases List.mem_cons.mp member with rfl | later
      · exact ⟨_, List.mem_cons_self, pair⟩
      · obtain ⟨t, there, found⟩ := ih later
        exact ⟨t, List.mem_cons_of_mem _ there, found⟩
  obtain ⟨t, there, pair⟩ := paired
  exact ⟨t, List.mem_append_left _ there, pair⟩

theorem eq_of_id {shards : List ShardConfig} (distinct : (shards.map (·.id)).Nodup) {s t : ShardConfig}
    (left : s ∈ shards) (right : t ∈ shards) (same : s.id = t.id) : s = t :=
  List.inj_on_of_nodup_map distinct left right same

theorem shardById_of_mem {r : ShardRing} (distinct : (r.shards.map (·.id)).Nodup) {s : ShardConfig}
    (member : s ∈ r.shards) : r.shardById s.id = some s := by
  cases found : r.shardById s.id with
  | none => exact absurd (List.find?_eq_none.mp found s member) (by simp)
  | some t =>
    obtain ⟨there, same⟩ := ShardRing.shardById_mem found
    rw [eq_of_id distinct there member same]

/-- No virtual node goes away. -/
theorem Grows.vnodes_subset (grows : Grows before after) : vnodes before ⊆ vnodes after := by
  intro node member
  obtain ⟨s, there, owner, below⟩ := mem_vnodes.mp member
  obtain ⟨t, inside, raised⟩ := grows.raised there
  exact mem_vnodes.mpr ⟨t, inside, owner.trans raised.id.symm, Nat.lt_of_lt_of_le below (effectiveVnodeCount_mono raised)⟩

/-- A virtual node that is new belongs to a shard that was added or enlarged. -/
theorem Grows.new_vnode (grows : Grows before after) {node : VNode} {t : ShardConfig} (there : t ∈ after)
    (owner : node.shardId = t.id) (below : node.vnodeId < effectiveVnodeCount t) (new : node ∉ vnodes before) :
    Added before after t ∨ Enlarged before t := by
  by_cases known : t.id ∈ before.map (·.id)
  · obtain ⟨s, member, same⟩ := List.mem_map.mp known
    obtain ⟨u, inside, raised⟩ := grows.raised member
    have distinct := grows
    obtain ⟨_, _, _, _, distinct⟩ := distinct
    obtain rfl := eq_of_id distinct inside there (raised.id.trans same)
    refine .inr ⟨s, member, raised, ?_⟩
    by_contra notLess
    exact new (mem_vnodes.mpr ⟨s, member, owner.trans same.symm, by omega⟩)
  · exact .inl ⟨there, known⟩

/-! ### Keys -/

section Keys
variable {hashNode : VNode → Nat} {hashProbe : Probe → Nat}

/-- The shard of a key is the owner of the successor of its hash. -/
theorem shardByKey_owner {shards : List ShardConfig} (distinct : (shards.map (·.id)).Nodup) {key : Str} {node : VNode}
    (next : hashRing hashNode hashProbe (vnodes shards) (.key key) = some node) :
    ∃ s ∈ shards, node.shardId = s.id ∧ node.vnodeId < effectiveVnodeCount s ∧
      (ShardRing.fromShards (hashRing hashNode hashProbe) shards).shardByKey key = some s := by
  obtain ⟨s, member, owner, below⟩ := mem_vnodes.mp (Circle.successor_isNext next).member
  refine ⟨s, member, owner, below, ?_⟩
  have nonempty : shards.isEmpty = false := by simpa using List.ne_nil_of_mem member
  have probed : (ShardRing.fromShards (hashRing hashNode hashProbe) shards).ring (.key key) = some node := next
  rw [ShardRing.shardByKey, show (ShardRing.fromShards (hashRing hashNode hashProbe) shards).shards = shards from rfl,
    nonempty, probed, Option.bind_some, owner]
  exact shardById_of_mem (r := .fromShards (hashRing hashNode hashProbe) shards) distinct member

variable (hashNode hashProbe) in
theorem next_exists {shards : List ShardConfig} (nonempty : shards ≠ []) (key : Str) :
    ∃ node, hashRing hashNode hashProbe (vnodes shards) (.key key) = some node :=
  Circle.successor_isSome hashNode (vnodes_ne_nil nonempty) _

theorem staysOrMoves_of_grows (grows : Grows before after) (distinct : DistinctHashes hashNode after) (key : Str) :
    StaysOrMoves (hashRing hashNode hashProbe) before after key := by
  obtain ⟨_, _, _, _, distinctAfter⟩ := id grows
  by_cases empty : after = []
  · have none : before = [] := by
      rw [List.eq_nil_iff_forall_not_mem]
      intro s member
      obtain ⟨t, there, _⟩ := grows.raised member
      rw [empty] at there
      cases there
    rw [empty, none]
    rfl
  obtain ⟨node, next⟩ := next_exists hashNode hashProbe empty key
  obtain ⟨t, there, owner, below, found⟩ := shardByKey_owner distinctAfter next
  rw [StaysOrMoves, found]
  rcases Circle.successor_more grows.vnodes_subset distinct next with kept | new
  · obtain ⟨s, member, same, _, foundBefore⟩ := shardByKey_owner grows.distinct_before kept
    obtain ⟨u, inside, raised⟩ := grows.raised member
    obtain rfl := eq_of_id distinctAfter inside there (raised.id.trans (same.symm.trans owner))
    exact .inl ⟨s, foundBefore, raised⟩
  · exact .inr (grows.new_vnode there owner below new)

theorem shardByKey_of_perm (distinctIds : (before.map (·.id)).Nodup) (reordered : after.Perm before)
    (distinct : DistinctHashes hashNode before) (key : Str) :
    (ShardRing.fromShards (hashRing hashNode hashProbe) after).shardByKey key =
      (ShardRing.fromShards (hashRing hashNode hashProbe) before).shardByKey key := by
  have sameNodes : ∀ node, node ∈ vnodes after ↔ node ∈ vnodes before := by
    intro node
    simp only [mem_vnodes, reordered.mem_iff]
  by_cases empty : before = []
  · rw [empty] at reordered
    rw [empty, reordered.eq_nil]
  obtain ⟨node, next⟩ := next_exists hashNode hashProbe empty key
  have nextAfter : hashRing hashNode hashProbe (vnodes after) (.key key) = some node := by
    rw [hashRing, Circle.successor_congr sameNodes distinct]
    exact next
  obtain ⟨s, member, owner, _, found⟩ := shardByKey_owner distinctIds next
  obtain ⟨t, there, same, _, foundAfter⟩ := shardByKey_owner ((reordered.map _).nodup_iff.mpr distinctIds) nextAfter
  rw [found, foundAfter, eq_of_id distinctIds (reordered.mem_iff.mp there) member (same.symm.trans owner)]

end Keys

/-- Growth moves keys only onto shards that were added or enlarged, and the order of the shards moves none. -/
theorem shardByKey_growth (hashNode : VNode → Nat) (hashProbe : Probe → Nat) (before : List ShardConfig)
    (distinctIds : (before.map (·.id)).Nodup) (key : Str) :
    (∀ after, Grows before after → DistinctHashes hashNode after →
      StaysOrMoves (hashRing hashNode hashProbe) before after key) ∧
    ∀ after, after.Perm before → DistinctHashes hashNode before →
      (ShardRing.fromShards (hashRing hashNode hashProbe) after).shardByKey key =
        (ShardRing.fromShards (hashRing hashNode hashProbe) before).shardByKey key :=
  ⟨fun _ grows distinct => staysOrMoves_of_grows grows distinct key,
    fun _ reordered distinct => shardByKey_of_perm distinctIds reordered distinct key⟩

/-- The nodes of shard i lie at the pairs of i and their numbers. -/
def pairHash (node : VNode) : Nat := Nat.pair node.shardId node.vnodeId

theorem pairHash_distinct (shards : List ShardConfig) : DistinctHashes pairHash shards := by
  rintro ⟨i, m⟩ _ ⟨j, n⟩ _ same
  obtain ⟨rfl, rfl⟩ := Nat.pair_eq_pair.mp same
  rfl

def smallShard (id weight : Nat) : ShardConfig := ⟨id, "ilp".toList, "pg".toList, weight, 2⟩

theorem shardByKey_growth_two :
    StaysOrMoves (hashRing pairHash fun _ => 3) [smallShard 0 1] [smallShard 0 2, smallShard 1 1] "k".toList ∧
    (ShardRing.fromShards (hashRing pairHash fun _ => 3) [smallShard 1 1, smallShard 0 1]).shardByKey "k".toList =
      (ShardRing.fromShards (hashRing pairHash fun _ => 3) [smallShard 0 1, smallShard 1 1]).shardByKey "k".toList := by
  constructor
  · refine (shardByKey_growth pairHash (fun _ => 3) [smallShard 0 1] (by decide) "k".toList).1 _ ?_ (pairHash_distinct _)
    exact ⟨[smallShard 0 2], [smallShard 1 1], rfl, .cons ⟨rfl, rfl, rfl, by decide, by decide⟩ .nil, by decide⟩
  · exact (shardByKey_growth pairHash (fun _ => 3) [smallShard 0 1, smallShard 1 1] (by decide) "k".toList).2 _
      (.swap _ _ _) (pairHash_distinct _)

end QuestRouter.Routing
