import QuestRouter.Metadata.Snapshot

/-!
# Failover

A lookup tries the primary shard, then salted probes in a fixed order, then the lowest shard id. Each
stage answers with the first candidate that is not excluded, so excluding more shards changes the
answer only if the answer is among them.
-/

namespace QuestRouter.Routing
open Text Metadata

theorem argmin_filter_stable {α β : Type} [LinearOrder β] {f : α → β} {p q : α → Bool} {s : α} (l : List α)
    (fewer : ∀ x ∈ l, q x = true → p x = true) (least : (l.filter p).argmin f = some s) (kept : q s = true) :
    (l.filter q).argmin f = some s := by
  induction l with
  | nil => cases least
  | cons a l ih =>
    rw [List.forall_mem_cons] at fewer
    by_cases inP : p a = true
    · rw [List.filter_cons_of_pos inP, List.argmin_cons] at least
      by_cases inQ : q a = true
      · rw [List.filter_cons_of_pos inQ, List.argmin_cons]
        cases rest : (l.filter p).argmin f with
        | none =>
          rw [rest] at least
          obtain rfl := Option.some.inj least
          have empty : l.filter q = [] := by
            rw [List.filter_eq_nil_iff]
            intro x member stays
            exact List.filter_eq_nil_iff.mp (List.argmin_eq_none.mp rest) x member (fewer.2 x member stays)
          simp [empty]
        | some c =>
          rw [rest] at least
          dsimp only at least
          split at least
          · rename_i smaller
            obtain rfl := Option.some.inj least
            rw [ih fewer.2 rest]
            simp [smaller]
          · rename_i first
            obtain rfl := Option.some.inj least
            cases other : (l.filter q).argmin f with
            | none => rfl
            | some d =>
              have inside := List.mem_filter.mp (List.argmin_mem other)
              have above : f c ≤ f d :=
                List.le_of_mem_argmin (List.mem_filter.mpr ⟨inside.1, fewer.2 d inside.1 inside.2⟩) rest
              have notSmaller : ¬ f d < f a := fun smaller => first (above.trans_lt smaller)
              simp [notSmaller]
      · rw [List.filter_cons_of_neg inQ]
        cases rest : (l.filter p).argmin f with
        | none =>
          rw [rest] at least
          obtain rfl := Option.some.inj least
          exact (inQ kept).elim
        | some c =>
          rw [rest] at least
          dsimp only at least
          split at least
          · obtain rfl := Option.some.inj least
            exact ih fewer.2 rest
          · obtain rfl := Option.some.inj least
            exact (inQ kept).elim
    · have notQ : ¬ q a = true := fun inQ => inP (fewer.1 inQ)
      rw [List.filter_cons_of_neg inP] at least
      rw [List.filter_cons_of_neg notQ]
      exact ih fewer.2 least

namespace ShardRing
variable {r : ShardRing} {key : Str} {E E' : Nat → Bool} {s : ShardConfig}

/-- Every configured shard that `E` excludes is excluded by `E'`. -/
def ExcludesMore (r : ShardRing) (E E' : Nat → Bool) : Prop :=
  ∀ shard ∈ r.shards, E shard.id = true → E' shard.id = true

theorem primary_stable (found : (r.shardByKey key).filter (fun shard => !E shard.id) = some s)
    (kept : E' s.id = false) : (r.shardByKey key).filter (fun shard => !E' shard.id) = some s := by
  obtain ⟨primary, _⟩ := Option.filter_eq_some_iff.mp found
  exact Option.filter_eq_some_iff.mpr ⟨primary, by simp [kept]⟩

theorem primary_none (more : r.ExcludesMore E E')
    (missing : (r.shardByKey key).filter (fun shard => !E shard.id) = none) :
    (r.shardByKey key).filter (fun shard => !E' shard.id) = none := by
  rw [Option.filter_eq_none_iff] at missing ⊢
  intro shard found included
  apply missing shard found
  have stays : ¬ E shard.id = true := fun out => by simp [more shard (shardByKey_mem found) out] at included
  simpa using stays

theorem landing_none (more : r.ExcludesMore E E') {vnode : VNode}
    (missing : (if E vnode.shardId then none else r.shardById vnode.shardId) = none) :
    (if E' vnode.shardId then none else r.shardById vnode.shardId) = none := by
  cases found : r.shardById vnode.shardId with
  | none => simp
  | some shard =>
    obtain ⟨member, same⟩ := shardById_mem found
    have out : E vnode.shardId = true := by
      by_contra included
      simp [found, included] at missing
    rw [← same] at out ⊢
    simp [more shard member out]

theorem landing_stable {vnode : VNode}
    (found : (if E vnode.shardId then none else r.shardById vnode.shardId) = some s) (kept : E' s.id = false) :
    (if E' vnode.shardId then none else r.shardById vnode.shardId) = some s := by
  split at found
  · cases found
  · rw [← (shardById_mem found).2, kept, (shardById_mem found).2, found]
    rfl

theorem attempt_none (more : r.ExcludesMore E E') {probe : Probe}
    (missing : ((r.ring probe).bind fun vnode =>
      if E vnode.shardId then none else r.shardById vnode.shardId) = none) :
    ((r.ring probe).bind fun vnode => if E' vnode.shardId then none else r.shardById vnode.shardId) = none := by
  cases lands : r.ring probe with
  | none => rfl
  | some vnode =>
    rw [lands] at missing
    exact landing_none more missing

theorem probe_none (more : r.ExcludesMore E E') (missing : r.probe key E = none) : r.probe key E' = none := by
  unfold probe at missing ⊢
  rw [List.findSome?_eq_none_iff] at missing ⊢
  intro attempt member
  exact attempt_none more (missing attempt member)

theorem probe_stable (more : r.ExcludesMore E E') (found : r.probe key E = some s) (kept : E' s.id = false) :
    r.probe key E' = some s := by
  unfold probe at found ⊢
  obtain ⟨before, attempt, after, split, hit, misses⟩ := List.findSome?_eq_some_iff.mp found
  refine List.findSome?_eq_some_iff.mpr ⟨before, attempt, after, split, ?_, ?_⟩
  · obtain ⟨vnode, probed, lands⟩ := Option.bind_eq_some_iff.mp hit
    exact Option.bind_eq_some_iff.mpr ⟨vnode, probed, landing_stable lands kept⟩
  · intro earlier member
    exact attempt_none more (misses earlier member)

theorem shardByKeyFiltered_stable (more : r.ExcludesMore E E') (found : r.shardByKeyFiltered key E = some s)
    (kept : E' s.id = false) : r.shardByKeyFiltered key E' = some s := by
  unfold shardByKeyFiltered at found ⊢
  split at found
  · cases found
  rename_i nonempty
  rw [if_neg nonempty]
  split at found
  · rename_i primary
    obtain rfl := Option.some.inj found
    rw [primary_stable primary kept]
  rename_i noPrimary
  rw [primary_none more noPrimary]
  dsimp only
  split at found
  · rename_i probed
    obtain rfl := Option.some.inj found
    rw [probe_stable more probed kept]
  · rename_i noProbe
    rw [probe_none more noProbe]
    dsimp only
    refine argmin_filter_stable r.shards ?_ found (by simp [kept])
    intro shard member included
    have stays : ¬ E shard.id = true := fun out => by simp [more shard member out] at included
    simpa using stays

/-- Excluding more shards moves only the keys of the shards excluded. So a key that moves has lost its
shard, or a shard that was excluded has come back. -/
theorem shardByKeyFiltered_failover (r : ShardRing) (key : Str) (E E' : Nat → Bool) (s : ShardConfig)
    (found : r.shardByKeyFiltered key E = some s) :
    ((∀ id, E id = true → E' id = true) → E' s.id = false → r.shardByKeyFiltered key E' = some s) ∧
      (r.shardByKeyFiltered key E' ≠ some s →
        E' s.id = true ∨ ∃ shard ∈ r.shards, E shard.id = true ∧ E' shard.id = false) := by
  constructor
  · intro more kept
    exact shardByKeyFiltered_stable (fun shard _ => more shard.id) found kept
  · intro moved
    by_contra unchanged
    rw [not_or] at unchanged
    refine moved (shardByKeyFiltered_stable ?_ found (by simpa using unchanged.1))
    intro shard member out
    by_contra back
    exact unchanged.2 ⟨shard, member, out, by simpa using back⟩

end ShardRing

theorem failover_keeps_first :
    (twoShards "B".toList []).ring.shardByKeyFiltered "A".toList (fun id => id == 1) = some shardA :=
  (ShardRing.shardByKeyFiltered_failover (twoShards "B".toList []).ring "A".toList (fun _ => false)
    (fun id => id == 1) shardA (by decide +kernel)).1 (fun _ out => nomatch out) rfl

end QuestRouter.Routing
