import Mathlib.Data.List.MinMax

/-!
# Successors on a circle

Nodes lie on a circle at their hashes. The successor of a point is the node with the least hash that is not below
it, or the least of all. When nodes are added, the successor of a point stays or is one of the new nodes.
-/

namespace QuestRouter.Data.Circle

variable {N β : Type} [LinearOrder β] (hash : N → β)

def successor (nodes : List N) (point : β) : Option N :=
  ((nodes.filter fun n => decide (point ≤ hash n)).argmin hash).or (nodes.argmin hash)

structure IsNext (nodes : List N) (point : β) (n : N) : Prop where
  member : n ∈ nodes
  ahead : ∀ m ∈ nodes, point ≤ hash m → point ≤ hash n ∧ hash n ≤ hash m
  wrapped : (∀ m ∈ nodes, hash m < point) → ∀ m ∈ nodes, hash n ≤ hash m

variable {hash} {nodes nodes' : List N} {point : β} {n n' : N}

theorem successor_isNext (found : successor hash nodes point = some n) : IsNext hash nodes point n := by
  rcases Option.or_eq_some_iff.mp found with least | ⟨none, least⟩
  · obtain ⟨inside, notBelow⟩ := List.mem_filter.mp (List.argmin_mem least)
    have notBelow : point ≤ hash n := by simpa using notBelow
    refine ⟨inside, fun m there above => ⟨notBelow, ?_⟩, fun below => ?_⟩
    · exact List.le_of_mem_argmin (List.mem_filter.mpr ⟨there, by simpa using above⟩) least
    · exact absurd (below n inside) (not_lt.mpr notBelow)
  · rw [List.argmin_eq_none, List.filter_eq_nil_iff] at none
    refine ⟨List.argmin_mem least, fun m there above => ?_, fun _ m there => List.le_of_mem_argmin there least⟩
    exact absurd above (by simpa using none m there)

theorem successor_isSome (hash : N → β) (nonempty : nodes ≠ []) (point : β) :
    ∃ n, successor hash nodes point = some n := by
  rw [← Option.isSome_iff_exists, successor, Option.isSome_or, Bool.or_eq_true]
  refine .inr ?_
  rwa [Option.isSome_iff_ne_none, ne_eq, List.argmin_eq_none]

theorem successor_nil (point : β) : successor hash [] point = none := rfl

/-- Where no two nodes lie at one place there is one successor. -/
theorem IsNext.unique (distinct : Set.InjOn hash {m | m ∈ nodes}) (first : IsNext hash nodes point n)
    (second : IsNext hash nodes point n') : n = n' := by
  refine distinct first.member second.member (le_antisymm ?_ ?_)
  · by_cases below : ∀ m ∈ nodes, hash m < point
    · exact first.wrapped below n' second.member
    · push Not at below
      obtain ⟨m, there, above⟩ := below
      exact (first.ahead n' second.member (second.ahead m there above).1).2
  · by_cases below : ∀ m ∈ nodes, hash m < point
    · exact second.wrapped below n first.member
    · push Not at below
      obtain ⟨m, there, above⟩ := below
      exact (second.ahead n first.member (first.ahead m there above).1).2

theorem IsNext.of_subset (fewer : nodes ⊆ nodes') (next : IsNext hash nodes' point n) (kept : n ∈ nodes) :
    IsNext hash nodes point n where
  member := kept
  ahead m there above := next.ahead m (fewer there) above
  wrapped below m there := by
    refine next.wrapped (fun m inside => ?_) m (fewer there)
    by_contra above
    exact absurd (below n kept) (not_lt.mpr (next.ahead m inside (not_lt.mp above)).1)

/-- With more nodes, the successor is what it was or a node that is new. -/
theorem successor_more (fewer : nodes ⊆ nodes') (distinct : Set.InjOn hash {m | m ∈ nodes'})
    (found : successor hash nodes' point = some n) : successor hash nodes point = some n ∨ n ∉ nodes := by
  by_cases kept : n ∈ nodes
  · left
    obtain ⟨before, found'⟩ := successor_isSome hash (List.ne_nil_of_mem kept) point
    have next := (successor_isNext found).of_subset fewer kept
    have apart : Set.InjOn hash {m | m ∈ nodes} := fun _ first _ second => distinct (fewer first) (fewer second)
    rw [found', (successor_isNext found').unique apart next]
  · exact .inr kept

/-- The order of the nodes makes no difference. -/
theorem successor_congr (same : ∀ m, m ∈ nodes ↔ m ∈ nodes') (distinct : Set.InjOn hash {m | m ∈ nodes'}) :
    successor hash nodes point = successor hash nodes' point := by
  cases found : successor hash nodes' point with
  | none =>
    have empty : nodes' = [] := by
      by_contra nonempty
      obtain ⟨n, other⟩ := successor_isSome hash nonempty point
      rw [found] at other
      cases other
    have empty : nodes = [] := by
      rw [List.eq_nil_iff_forall_not_mem] at empty ⊢
      exact fun m member => empty m ((same m).mp member)
    rw [empty, successor_nil]
  | some n =>
    rcases successor_more (fun m member => (same m).mp member) distinct found with kept | new
    · exact kept
    · exact absurd ((same n).mpr (successor_isNext found).member) new

end QuestRouter.Data.Circle
