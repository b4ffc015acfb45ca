import QuestRouter.Protocol.IlpStreams

/-!
# What a forwarder uses

The threshold bounds the memory of the write buffers and pays for the writes: a write is one of a flush, of which a
stream gets at most one, or it is of a full buffer. A shard is connected to once.
-/

namespace QuestRouter.Protocol
open Text Routing Metadata

namespace IlpForwarder

variable {out : Outside} {f g : IlpForwarder} {id : Nat} {u : ShardUpstream}

/-- The buffer is below the threshold, and the writes of a stream that works are paid for. -/
structure Thrifty (flushes : Nat) (u : ShardUpstream) : Prop where
  small : u.buf.length < shardBufFlushBytes
  few : u.failed = false → shardBufFlushBytes * u.writes ≤ shardBufFlushBytes * flushes + u.sent.length

def Bounded (f : IlpForwarder) : Prop := ∀ id u, f.upstreams.get id = some u → Thrifty f.flushes u

/-- Every shard has been connected to once with success. -/
def ConnectsOnce (out : Outside) (f : IlpForwarder) : Prop :=
  f.upstreams.keys.length = (List.range f.connects).countP out.connect

/-! ### Updates -/

theorem empty_small : ([] : Bytes).length < shardBufFlushBytes := by decide

theorem thrifty_new (flushes : Nat) : Thrifty flushes {} := ⟨empty_small, fun _ => Nat.zero_le _⟩

theorem Thrifty.more {flushes more : Nat} (thrifty : Thrifty flushes u) (le : flushes ≤ more) : Thrifty more u := by
  refine ⟨thrifty.small, fun works => ?_⟩
  have paid := thrifty.few works
  have grows := Nat.mul_le_mul_left shardBufFlushBytes le
  omega

/-- A write of a full buffer pays for itself. -/
theorem Thrifty.full {flushes : Nat} (thrifty : Thrifty flushes u) {line : Bytes}
    (full : (fill u line).buf.length ≥ shardBufFlushBytes) :
    Thrifty flushes (writeBuf out id (fill u line)).2 := by
  cases outcome : out.write id (fill u line).writes with
  | none =>
    rw [writeBuf_ok outcome]
    refine ⟨empty_small, fun works => ?_⟩
    have paid := thrifty.few works
    change shardBufFlushBytes * (u.writes + 1) ≤ shardBufFlushBytes * flushes + (u.sent ++ (fill u line).buf).length
    rw [List.length_append, Nat.mul_succ]
    omega
  | some n =>
    rw [writeBuf_error outcome]
    exact ⟨empty_small, nofun⟩

/-- The flush pays for the write of another. -/
theorem Thrifty.flushed {flushes : Nat} (thrifty : Thrifty flushes u) : Thrifty (flushes + 1) (writeBuf out id u).2 := by
  cases outcome : out.write id u.writes with
  | none =>
    rw [writeBuf_ok outcome]
    refine ⟨empty_small, fun works => ?_⟩
    have paid := thrifty.few works
    change shardBufFlushBytes * (u.writes + 1) ≤ shardBufFlushBytes * (flushes + 1) + (u.sent ++ u.buf).length
    rw [List.length_append, Nat.mul_succ, Nat.mul_succ]
    omega
  | some n =>
    rw [writeBuf_error outcome]
    exact ⟨empty_small, nofun⟩

theorem Bounded.set (bounded : Bounded f) (thrifty : Thrifty f.flushes u) : Bounded (f.set id u) := by
  intro k v found
  rw [get_set] at found
  split at found
  · obtain rfl := Option.some.inj found
    exact thrifty
  · exact bounded k v found

theorem keys_set (present : (f.upstreams.get id).isSome = true) :
    (f.set id u).upstreams.keys.length = f.upstreams.keys.length := by
  have member : id ∈ f.upstreams.keys := AList.mem_keys.mp (AList.lookup_isSome.mp present)
  have keys : (f.set id u).upstreams.keys = id :: f.upstreams.keys.erase id := AList.keys_insert ..
  rw [keys, List.length_cons, List.length_erase_of_mem member]
  have := List.length_pos_of_mem member
  omega

theorem keys_set_new (absent : f.upstreams.get id = none) :
    (f.set id u).upstreams.keys.length = f.upstreams.keys.length + 1 := by
  have outside : id ∉ f.upstreams.keys := by
    intro member
    have held := AList.lookup_isSome.mpr (AList.mem_keys.mpr member)
    rw [show f.upstreams.lookup id = none from absent] at held
    cases held
  have keys : (f.set id u).upstreams.keys = id :: f.upstreams.keys.erase id := AList.keys_insert ..
  rw [keys, List.length_cons, List.erase_of_not_mem outside]

theorem ConnectsOnce.set (once : ConnectsOnce out f) (present : (f.upstreams.get id).isSome = true) :
    ConnectsOnce out (f.set id u) := (keys_set present).trans once

/-! ### One line -/

theorem upstreamOf_bounded (bounded : Bounded f) : Bounded (upstreamOf out f id).2 := by
  unfold upstreamOf
  split
  · exact bounded
  · split
    · exact Bounded.set (f := { f with connects := f.connects + 1 }) bounded (thrifty_new _)
    · exact bounded

theorem upstreamOf_connectsOnce (once : ConnectsOnce out f) : ConnectsOnce out (upstreamOf out f id).2 := by
  unfold upstreamOf ConnectsOnce at *
  split
  · exact once
  · rename_i absent
    have counted : (List.range (f.connects + 1)).countP out.connect =
        (List.range f.connects).countP out.connect + (out.connect f.connects).toNat := by
      rw [List.range_succ, List.countP_append, List.countP_singleton]
      cases out.connect f.connects <;> rfl
    split
    · rename_i connected
      refine (keys_set_new (f := { f with connects := f.connects + 1 }) absent).trans ?_
      change f.upstreams.keys.length + 1 = (List.range (f.connects + 1)).countP out.connect
      rw [counted, connected, once]
      rfl
    · rename_i refused
      rw [Bool.not_eq_true] at refused
      dsimp only
      rw [counted, refused, once]
      rfl

theorem bufferLine_bounded (bounded : Bounded f) (found : f.upstreams.get id = some u) (line : Bytes) :
    Bounded (bufferLine out f id u line).2 := by
  have thrifty := bounded id u found
  unfold bufferLine
  split
  · rename_i full
    have written : Thrifty f.flushes (writeBuf out id (fill u line)).2 := thrifty.full full
    rcases outcome : writeBuf out id (fill u line) with ⟨_ | _, v⟩
    · rw [outcome] at written
      exact bounded.set written
    · rw [outcome] at written
      exact bounded.set written
  · rename_i small
    exact bounded.set ⟨Nat.lt_of_not_ge small, thrifty.few⟩

theorem bufferLine_connectsOnce (once : ConnectsOnce out f) (found : f.upstreams.get id = some u) (line : Bytes) :
    ConnectsOnce out (bufferLine out f id u line).2 := by
  have present : (f.upstreams.get id).isSome = true := by rw [found]; rfl
  unfold bufferLine
  split
  · rcases writeBuf out id (fill u line) with ⟨_ | _, v⟩
    · exact once.set present
    · exact once.set present
  · exact once.set present

theorem routeAndBuffer_bounded (bounded : Bounded f) (once : ConnectsOnce out f) (line : Bytes) :
    Bounded (routeAndBuffer out f line).2 ∧ ConnectsOnce out (routeAndBuffer out f line).2 := by
  unfold routeAndBuffer
  split
  · exact ⟨bounded, once⟩
  dsimp only
  split
  · exact ⟨bounded, once⟩
  · rename_i shard _
    have bounded' : Bounded { f with routed := f.routed + 1 } := bounded
    have once' : ConnectsOnce out { f with routed := f.routed + 1 } := once
    have connected : Bounded (upstreamOf out { f with routed := f.routed + 1 } shard.id).2 :=
      upstreamOf_bounded bounded'
    have connectedOnce : ConnectsOnce out (upstreamOf out { f with routed := f.routed + 1 } shard.id).2 :=
      upstreamOf_connectsOnce once'
    rcases step : upstreamOf out { f with routed := f.routed + 1 } shard.id with ⟨e | u, g⟩
    · rw [step] at connected connectedOnce
      exact ⟨connected, connectedOnce⟩
    · rw [step] at connected connectedOnce
      have found := (upstreamOf_ok step).2.1
      exact ⟨bufferLine_bounded connected found line, bufferLine_connectsOnce connectedOnce found line⟩

/-! ### A flush -/

/-- Among the upstreams still to be visited every one is as the flush found it. -/
theorem flushEach_bounded {ids : List Nat} (nodup : ids.Nodup) {flushes : Nat} (counted : f.flushes = flushes + 1)
    (waiting : ∀ k ∈ ids, ∀ v, f.upstreams.get k = some v → Thrifty flushes v) (bounded : Bounded f) :
    Bounded (flushEach out ids f).2 := by
  induction ids generalizing f with
  | nil => exact bounded
  | cons first ids ih =>
    obtain ⟨fresh, nodup⟩ := List.nodup_cons.mp nodup
    have rest : ∀ k ∈ ids, ∀ v, f.upstreams.get k = some v → Thrifty flushes v :=
      fun k member => waiting k (List.mem_cons_of_mem _ member)
    rw [flushEach]
    split
    · exact ih nodup counted rest bounded
    · rename_i v found
      split
      · exact ih nodup counted rest bounded
      · have written : Thrifty (flushes + 1) (writeBuf out first v).2 :=
          (waiting first List.mem_cons_self v found).flushed
        rw [← counted] at written
        rcases outcome : writeBuf out first v with ⟨_ | _, w⟩
        · rw [outcome] at written
          exact bounded.set written
        · rw [outcome] at written
          refine ih nodup counted (fun k member x found' => ?_) (bounded.set written)
          have other : k ≠ first := fun same => fresh (same ▸ member)
          rw [get_set, if_neg other] at found'
          exact rest k member x found'

theorem flushEach_connectsOnce {ids : List Nat} (once : ConnectsOnce out f) :
    ConnectsOnce out (flushEach out ids f).2 := by
  induction ids generalizing f with
  | nil => exact once
  | cons first ids ih =>
    rw [flushEach]
    split
    · exact ih once
    · rename_i v found
      have present : (f.upstreams.get first).isSome = true := by rw [found]; rfl
      split
      · exact ih once
      · rcases writeBuf out first v with ⟨_ | _, w⟩
        · exact once.set present
        · exact ih (once.set present)

theorem flush_bounded (bounded : Bounded f) (once : ConnectsOnce out f) :
    Bounded (flush out f).2 ∧ ConnectsOnce out (flush out f).2 := by
  have once' : ConnectsOnce out { f with flushes := f.flushes + 1 } := once
  refine ⟨?_, flushEach_connectsOnce once'⟩
  apply flushEach_bounded (f := { f with flushes := f.flushes + 1 }) (nextOrder_nodup out f) rfl
  · exact fun k _ v found => bounded k v found
  · exact fun k v found => (bounded k v found).more (Nat.le_succ _)

/-! ### Every run -/

theorem performAll_bounded (calls : List Call) (bounded : Bounded f) (once : ConnectsOnce out f) :
    Bounded (performAll out calls f).2 ∧ ConnectsOnce out (performAll out calls f).2 := by
  induction calls generalizing f with
  | nil => exact ⟨bounded, once⟩
  | cons call calls ih =>
    have step : Bounded (perform out f call).2 ∧ ConnectsOnce out (perform out f call).2 := by
      cases call with
      | line bytes => exact routeAndBuffer_bounded bounded once bytes
      | flush => exact flush_bounded bounded once
    rw [performAll]
    rcases outcome : perform out f call with ⟨_ | _, g⟩
    · rwa [outcome] at step
    · rw [outcome] at step
      exact ih step.1 step.2

/-- After any requests, those that failed among them, each buffer is below the threshold, a stream that works has had
no more writes than there were flushes and full buffers, and each shard was connected to once. -/
theorem requests_bounded (out : Outside) (requests : List Request) :
    Bounded (requests.foldl (fun f request => (handle out f request).2) {}) ∧
      ConnectsOnce out (requests.foldl (fun f request => (handle out f request).2) {}) := by
  have run : ∀ f, Bounded f → ConnectsOnce out f →
      Bounded (requests.foldl (fun f request => (handle out f request).2) f) ∧
        ConnectsOnce out (requests.foldl (fun f request => (handle out f request).2) f) := by
    induction requests with
    | nil => exact fun f bounded once => ⟨bounded, once⟩
    | cons request requests ih =>
      intro f bounded once
      rw [List.foldl_cons, handle_eq]
      obtain ⟨bounded, once⟩ := performAll_bounded request.calls bounded once
      exact ih _ bounded once
  exact run {} nofun rfl

end IlpForwarder
end QuestRouter.Protocol
