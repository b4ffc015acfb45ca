import QuestRouter.Protocol.IlpFailure

/-!
# Bytes held for a shard

What a shard's upstream holds is what has been handed to its stream and what waits in its buffer. A
call that succeeds adds its line. A call that fails adds nothing, and if it fails in a write it cuts
what that shard holds.
-/

namespace QuestRouter.Protocol
open Text Routing Metadata

namespace IlpForwarder

def bufOf (f : IlpForwarder) (id : Nat) : Bytes := (upstreamIn f id).buf

def held (f : IlpForwarder) (id : Nat) : Bytes := f.sentTo id ++ f.bufOf id

/-- The write of a buffer that fails, by its shard and how much of the buffer gets out. -/
def failingAt (out : Outside) (f : IlpForwarder) (id : Nat) : Option (Nat × Nat) :=
  if f.bufOf id = [] then none else (out.write id (upstreamIn f id).writes).map (id, ·)

def failingFlush (out : Outside) (f : IlpForwarder) : List Nat → Option (Nat × Nat)
  | [] => none
  | id :: ids => (failingAt out f id).or (failingFlush out f ids)

/-- The write that fails in a call. -/
def failingWrite (out : Outside) (f : IlpForwarder) : Call → Option (Nat × Nat)
  | .flush => failingFlush out f (nextOrder out f)
  | .line bytes =>
    if isBlank bytes then none
    else
      match nextShard out f bytes with
      | .error _ => none
      | .ok shard =>
        if f.upstreams.get shard.id = none ∧ out.connect f.connects = false then none
        else if (f.bufOf shard.id ++ terminated bytes).length ≥ shardBufFlushBytes then
          (out.write shard.id (upstreamIn f shard.id).writes).map (shard.id, ·)
        else none

def addedFor (out : Outside) (f : IlpForwarder) (call : Call) (id : Nat) : Bytes :=
  (routedTo out id f.routed (textLines [call])).flatMap terminated

structure BytesStep (out : Outside) (f : IlpForwarder) (call : Call) (r : Except ForwardError Unit)
    (g : IlpForwarder) : Prop where
  added : ∀ id, r = .ok () → g.held id = f.held id ++ addedFor out f call id
  kept : ∀ id, r ≠ .ok () → (∀ n, failingWrite out f call ≠ some (id, n)) → g.held id = f.held id
  cut : ∀ id n, failingWrite out f call = some (id, n) →
    r ≠ .ok () ∧ g.bufOf id = [] ∧ g.sentTo id = f.sentTo id ++ (f.bufOf id ++ addedFor out f call id).take n
  grows : ∀ id, f.sentTo id <+: g.sentTo id

theorem upstreamIn_set (f : IlpForwarder) (id k : Nat) (u : ShardUpstream) :
    upstreamIn (f.set id u) k = if k = id then u else upstreamIn f k := by
  unfold upstreamIn
  rw [get_set]
  split <;> rfl

theorem settled_of_held {f g : IlpForwarder} {id : Nat} (held : g.held id = f.held id)
    (empty : f.bufOf id = []) (grows : f.sentTo id <+: g.sentTo id) :
    g.bufOf id = [] ∧ g.sentTo id = f.sentTo id := by
  obtain ⟨more, same⟩ := grows
  unfold IlpForwarder.held at held
  rw [empty, ← same, List.append_assoc, List.append_cancel_left_eq, List.append_eq_nil_iff] at held
  exact ⟨held.2, by rw [← same, held.1, List.append_nil]⟩

/-! ### A flush -/

theorem failingFlush_congr {out : Outside} {f g : IlpForwarder} {ids : List Nat}
    (same : ∀ id ∈ ids, upstreamIn g id = upstreamIn f id) : failingFlush out g ids = failingFlush out f ids := by
  induction ids with
  | nil => rfl
  | cons first ids ih =>
    have tail := ih fun id member => same id (List.mem_cons_of_mem _ member)
    have head : failingAt out g first = failingAt out f first := by
      rw [failingAt, failingAt, bufOf, bufOf, same first List.mem_cons_self]
    rw [failingFlush, failingFlush, head, tail]

theorem failingFlush_mem {out : Outside} {f : IlpForwarder} {ids : List Nat} {failure : Nat × Nat}
    (h : failingFlush out f ids = some failure) : failure.1 ∈ ids := by
  induction ids with
  | nil => cases h
  | cons first ids ih =>
    rw [failingFlush, Option.or_eq_some_iff] at h
    rcases h with here | ⟨_, later⟩
    · unfold failingAt at here
      split at here
      · cases here
      · obtain ⟨n, _, rfl⟩ := Option.map_eq_some_iff.mp here
        exact List.mem_cons_self
    · exact List.mem_cons_of_mem _ (ih later)

theorem flushEach_bytes (out : Outside) (f : IlpForwarder) {ids : List Nat} (nodup : ids.Nodup) :
    match failingFlush out f ids with
    | none => (flushEach out ids f).1 = .ok () ∧
        ∀ id, (flushEach out ids f).2.held id = f.held id ∧ f.sentTo id <+: (flushEach out ids f).2.sentTo id ∧
          (id ∈ ids → (flushEach out ids f).2.bufOf id = [])
    | some (s, n) => (flushEach out ids f).1 ≠ .ok () ∧
        (flushEach out ids f).2.bufOf s = [] ∧
        (flushEach out ids f).2.sentTo s = f.sentTo s ++ (f.bufOf s).take n ∧
        ∀ id, id ≠ s → (flushEach out ids f).2.held id = f.held id ∧
          f.sentTo id <+: (flushEach out ids f).2.sentTo id := by
  induction ids generalizing f with
  | nil => exact ⟨rfl, fun id => ⟨rfl, List.prefix_rfl, fun member => (List.not_mem_nil member).elim⟩⟩
  | cons first ids ih =>
    obtain ⟨fresh, nodup⟩ := List.nodup_cons.mp nodup
    -- The loop goes on from `g`, where the first upstream has been emptied.
    have goOn : ∀ g : IlpForwarder, (∀ id, id ≠ first → upstreamIn g id = upstreamIn f id) →
        g.held first = f.held first → f.sentTo first <+: g.sentTo first → g.bufOf first = [] →
        match failingFlush out f ids with
        | none => (flushEach out ids g).1 = .ok () ∧
            ∀ id, (flushEach out ids g).2.held id = f.held id ∧
              f.sentTo id <+: (flushEach out ids g).2.sentTo id ∧
              (id ∈ first :: ids → (flushEach out ids g).2.bufOf id = [])
        | some (s, n) => (flushEach out ids g).1 ≠ .ok () ∧ (flushEach out ids g).2.bufOf s = [] ∧
            (flushEach out ids g).2.sentTo s = f.sentTo s ++ (f.bufOf s).take n ∧
            ∀ id, id ≠ s → (flushEach out ids g).2.held id = f.held id ∧
              f.sentTo id <+: (flushEach out ids g).2.sentTo id := by
      intro g others held grows emptied
      have heldAll : ∀ id, g.held id = f.held id ∧ f.sentTo id <+: g.sentTo id := by
        intro id
        by_cases same : id = first
        · subst same
          exact ⟨held, grows⟩
        · simp [IlpForwarder.held, sentTo, bufOf, others id same]
      have spec := ih g nodup
      rw [failingFlush_congr (f := f) fun id member => others id fun eq => fresh (eq ▸ member)] at spec
      cases failing : failingFlush out f ids with
      | none =>
        rw [failing] at spec
        obtain ⟨ok, each⟩ := spec
        refine ⟨ok, fun id => ?_⟩
        obtain ⟨same, sent, empty⟩ := each id
        refine ⟨same.trans (heldAll id).1, (heldAll id).2.trans sent, fun member => ?_⟩
        rcases List.mem_cons.mp member with rfl | later
        · exact (settled_of_held same emptied sent).1
        · exact empty later
      | some failure =>
        rw [failing] at spec
        obtain ⟨error, empty, sent, rest⟩ := spec
        have other := others failure.1 fun eq => fresh (eq ▸ failingFlush_mem failing)
        refine ⟨error, empty, ?_, fun id different => ?_⟩
        · rw [sent]
          simp only [sentTo, bufOf, other]
        · exact ⟨(rest id different).1.trans (heldAll id).1, (heldAll id).2.trans (rest id different).2⟩
    rw [flushEach, failingFlush]
    cases found : f.upstreams.get first with
    | none =>
      have empty : f.bufOf first = [] := by simp [bufOf, upstreamIn, found]
      rw [failingAt, if_pos empty, Option.none_or]
      exact goOn f (fun _ _ => rfl) rfl List.prefix_rfl empty
    | some u =>
      have here : upstreamIn f first = u := by simp [upstreamIn, found]
      have buffer : f.bufOf first = u.buf := by rw [bufOf, here]
      dsimp only
      by_cases empty : u.buf = []
      · rw [if_pos (List.isEmpty_iff.mpr empty), failingAt, if_pos (buffer.trans empty), Option.none_or]
        exact goOn f (fun _ _ => rfl) rfl List.prefix_rfl (buffer.trans empty)
      · rw [if_neg (by simpa using empty), failingAt, if_neg (by rwa [buffer]), here]
        cases outcome : out.write first u.writes with
        | none =>
          rw [writeBuf_ok outcome, Option.map_none, Option.none_or]
          refine goOn _ (fun id different => ?_) ?_ ?_ ?_
          · rw [upstreamIn_set, if_neg different]
          · simp [IlpForwarder.held, sentTo, bufOf, upstreamIn_set, here]
          · simp [sentTo, upstreamIn_set, here]
          · simp [bufOf, upstreamIn_set]
        | some n =>
          rw [writeBuf_error outcome, Option.map_some, Option.some_or]
          refine ⟨by simp, by simp [bufOf, upstreamIn_set], ?_, fun id different => ?_⟩
          · simp [sentTo, bufOf, upstreamIn_set, here]
          · simp [IlpForwarder.held, sentTo, bufOf, upstreamIn_set, different]

/-! ### A line -/

theorem addedFor_line (out : Outside) (f : IlpForwarder) (bytes : Bytes) (id : Nat) :
    addedFor out f (.line bytes) id =
      if isBlank bytes = false ∧ goesTo out f.routed bytes id = true then terminated bytes else [] := by
  unfold addedFor
  cases text : isBlank bytes with
  | true => simp [textLines, text, routedTo]
  | false =>
    rw [show textLines [.line bytes] = [bytes] by simp [textLines, text]]
    cases goes : goesTo out f.routed bytes id <;> simp [routedTo, goes]

theorem addedFor_target {out : Outside} {f : IlpForwarder} {bytes : Bytes} {shard : ShardConfig}
    (text : isBlank bytes = false) (target : nextShard out f bytes = .ok shard) (id : Nat) :
    addedFor out f (.line bytes) id = if id = shard.id then terminated bytes else [] := by
  rw [addedFor_line]
  have goes : goesTo out f.routed bytes id = (shard.id == id) := by
    unfold goesTo
    rw [show shardOfLine out.defaultShardKey (out.snapshot f.routed) bytes = .ok shard from target]
  rw [goes]
  by_cases same : id = shard.id
  · simp [text, same]
  · simp [same, Ne.symm same]

theorem bytesStep_unchanged {out : Outside} {f g : IlpForwarder} {call : Call} {r : Except ForwardError Unit}
    (same : g.upstreams = f.upstreams) (failing : failingWrite out f call = none)
    (nothing : r = .ok () → ∀ id, addedFor out f call id = []) : BytesStep out f call r g where
  added id ok := by simp [IlpForwarder.held, sentTo, bufOf, upstreamIn, same, nothing ok id]
  kept id _ _ := by simp [IlpForwarder.held, sentTo, bufOf, upstreamIn, same]
  cut id n fails := by rw [failing] at fails; cases fails
  grows id := by simp [sentTo, upstreamIn, same]

theorem bufferLine_bytes {out : Outside} {f g : IlpForwarder} {bytes : Bytes} {shard : ShardConfig}
    (text : isBlank bytes = false) (target : nextShard out f bytes = .ok shard)
    (connected : f.upstreams.get shard.id = none → out.connect f.connects = true)
    (others : ∀ k, upstreamIn g k = upstreamIn f k) :
    BytesStep out f (.line bytes) (bufferLine out g shard.id (upstreamIn f shard.id) bytes).1
      (bufferLine out g shard.id (upstreamIn f shard.id) bytes).2 := by
  have adds := addedFor_target text target
  have notRefused : ¬ (f.upstreams.get shard.id = none ∧ out.connect f.connects = false) := by
    rintro ⟨absent, refused⟩
    rw [connected absent] at refused
    cases refused
  have failing : failingWrite out f (.line bytes) =
      if (f.bufOf shard.id ++ terminated bytes).length ≥ shardBufFlushBytes then
        (out.write shard.id (upstreamIn f shard.id).writes).map (shard.id, ·)
      else none := by
    rw [failingWrite, text]
    simp only [Bool.false_eq_true, if_false, target, if_neg notRefused]
  -- The line is added to the shard's bytes, and no other shard's bytes change.
  have kept : ∀ u : ShardUpstream, failingWrite out f (.line bytes) = none →
      u.sent ++ u.buf = f.held shard.id ++ terminated bytes → f.sentTo shard.id <+: u.sent →
      BytesStep out f (.line bytes) (.ok ()) ((g.set shard.id u).accept shard.id bytes) := by
    intro u none whole grows
    have upstream : ∀ id, upstreamIn ((g.set shard.id u).accept shard.id bytes) id =
        if id = shard.id then u else upstreamIn f id := by
      intro id
      rw [upstreamIn, accept_upstreams, ← upstreamIn, upstreamIn_set, others]
    refine ⟨fun id _ => ?_, fun id failed => (failed rfl).elim, fun id n fails => ?_, fun id => ?_⟩
    · rw [adds]
      simp only [IlpForwarder.held, sentTo, bufOf, upstream] at whole ⊢
      split
      · rename_i same
        rw [whole, same]
      · rw [List.append_nil]
    · rw [none] at fails
      cases fails
    · simp only [sentTo, upstream] at grows ⊢
      split
      · rename_i same
        rwa [same]
      · exact List.prefix_rfl
  unfold bufferLine
  split
  · rename_i large
    have large : (f.bufOf shard.id ++ terminated bytes).length ≥ shardBufFlushBytes := large
    rw [if_pos large] at failing
    cases outcome : out.write shard.id (upstreamIn f shard.id).writes with
    | none =>
      have written : writeBuf out shard.id (fill (upstreamIn f shard.id) bytes) = _ := writeBuf_ok outcome
      rw [outcome] at failing
      rw [written]
      exact kept _ failing (by simp [fill, IlpForwarder.held, sentTo, bufOf]) (by simp [fill, sentTo])
    | some n =>
      have broken : writeBuf out shard.id (fill (upstreamIn f shard.id) bytes) = _ := writeBuf_error outcome
      rw [outcome] at failing
      rw [broken]
      refine ⟨by simp, fun id _ other => ?_, fun id m fails => ?_, fun id => ?_⟩
      · have different : id ≠ shard.id := by
          rintro rfl
          exact other n failing
        simp [IlpForwarder.held, sentTo, bufOf, upstreamIn_set, different, others]
      · rw [failing] at fails
        obtain ⟨rfl, rfl⟩ := Prod.mk.inj (Option.some.inj fails)
        refine ⟨by simp, by simp [bufOf, upstreamIn_set], ?_⟩
        rw [adds, if_pos rfl]
        simp [sentTo, bufOf, upstreamIn_set, fill]
      · simp only [sentTo, upstreamIn_set]
        split
        · rename_i same
          simp [fill, same]
        · rw [others]
  · rename_i small
    have small : ¬ (f.bufOf shard.id ++ terminated bytes).length ≥ shardBufFlushBytes := small
    rw [if_neg small] at failing
    exact kept _ failing (by simp [fill, IlpForwarder.held, sentTo, bufOf]) (by simp [fill, sentTo])

theorem routeAndBuffer_bytes (out : Outside) (f : IlpForwarder) (bytes : Bytes) :
    BytesStep out f (.line bytes) (routeAndBuffer out f bytes).1 (routeAndBuffer out f bytes).2 := by
  unfold routeAndBuffer
  split
  · rename_i blank
    refine bytesStep_unchanged rfl (by simp [failingWrite, blank]) fun _ id => ?_
    rw [addedFor_line, if_neg (by simp [blank])]
  rename_i notBlank
  have text : isBlank bytes = false := by simpa using notBlank
  dsimp only
  split
  · rename_i e target
    have target : nextShard out f bytes = .error e := target
    exact bytesStep_unchanged rfl (by simp [failingWrite, text, target]) nofun
  · rename_i shard target
    have target : nextShard out f bytes = .ok shard := target
    rcases step : upstreamOf out { f with routed := f.routed + 1 } shard.id with ⟨e | u, g⟩
    · obtain ⟨rfl, same, absent, refused⟩ := upstreamOf_error step
      have absent : f.upstreams.get shard.id = none := absent
      have refused : out.connect f.connects = false := refused
      exact bytesStep_unchanged same (by simp [failingWrite, text, target, absent, refused]) nofun
    · obtain ⟨rfl, here, _, _, others, connected⟩ := upstreamOf_ok step
      apply bufferLine_bytes text target connected
      intro k
      by_cases same : k = shard.id
      · subst same
        simp only [upstreamIn, here]
        rfl
      · simp only [upstreamIn, others k same]

theorem perform_bytes (out : Outside) (f : IlpForwarder) (call : Call) :
    BytesStep out f call (perform out f call).1 (perform out f call).2 := by
  cases call with
  | line bytes => exact routeAndBuffer_bytes out f bytes
  | flush =>
    have nothing : ∀ id, addedFor out f .flush id = [] := fun id => rfl
    have each := flushEach_bytes out { f with flushes := f.flushes + 1 } (nextOrder_nodup out f)
    have same : failingFlush out { f with flushes := f.flushes + 1 } (nextOrder out f) =
        failingWrite out f .flush := failingFlush_congr fun _ _ => rfl
    rw [same] at each
    cases failing : failingWrite out f .flush with
    | none =>
      rw [failing] at each
      obtain ⟨ok, each⟩ := each
      refine ⟨fun id _ => ?_, fun id failed => (failed ok).elim, fun id n fails => ?_, fun id => (each id).2.1⟩
      · rw [nothing, List.append_nil]
        exact (each id).1
      · rw [failing] at fails
        cases fails
    | some failure =>
      rw [failing] at each
      obtain ⟨error, empty, sent, others⟩ := each
      refine ⟨fun id ok => (error ok).elim, fun id _ other => ?_, fun id n fails => ?_, fun id => ?_⟩
      · exact (others id fun eq => other failure.2 (by rw [failing, eq])).1
      · rw [failing] at fails
        obtain rfl := Option.some.inj fails
        rw [nothing, List.append_nil]
        exact ⟨error, empty, sent⟩
      · by_cases same : id = failure.1
        · rw [same]
          exact ⟨_, sent.symm⟩
        · exact (others id same).2

end IlpForwarder
end QuestRouter.Protocol
