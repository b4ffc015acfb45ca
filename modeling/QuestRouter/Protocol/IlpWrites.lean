import Mathlib.Data.Nat.Order.Lemmas
import QuestRouter.Protocol.IlpBatch

/-!
# Writes of a batch

A call that succeeds either leaves what a shard was sent as it is, or hands the whole buffer of the shard to
one write that succeeds. The last call of a batch leaves no buffer filled, so each line of a batch that succeeds
has been handed, as a whole, to one such write.
-/

namespace QuestRouter.Protocol
open Text Routing Metadata

namespace IlpForwarder

variable {out : Outside} {f g : IlpForwarder}

/-- Between two states one write was made for the shard; it succeeded, and got this chunk. -/
structure Writes (out : Outside) (id : Nat) (f g : IlpForwarder) (chunk : Bytes) : Prop where
  succeeds : out.write id (upstreamIn f id).writes = none
  one : (upstreamIn g id).writes = (upstreamIn f id).writes + 1
  sent : g.sentTo id = f.sentTo id ++ chunk

/-! ### One call -/

/-- What was sent to the shard stays, or its buffer was written out. -/
def SentOrWritten (out : Outside) (id : Nat) (f g : IlpForwarder) : Prop :=
  g.sentTo id = f.sentTo id ∨ g.bufOf id = [] ∧ out.write id (upstreamIn f id).writes = none ∧
    (upstreamIn g id).writes = (upstreamIn f id).writes + 1

theorem flushEach_writes {ids : List Nat} (nodup : ids.Nodup) (h : flushEach out ids f = (.ok (), g)) (id : Nat) :
    upstreamIn g id = upstreamIn f id ∨ id ∈ ids ∧ g.bufOf id = [] ∧
      out.write id (upstreamIn f id).writes = none ∧
        (upstreamIn g id).writes = (upstreamIn f id).writes + 1 := by
  induction ids generalizing f with
  | nil =>
    cases h
    exact .inl rfl
  | cons first ids ih =>
    obtain ⟨fresh, distinct⟩ := List.nodup_cons.mp nodup
    have rest : ∀ {f'}, flushEach out ids f' = (.ok (), g) → upstreamIn f' id = upstreamIn f id →
        upstreamIn g id = upstreamIn f id ∨ id ∈ first :: ids ∧ g.bufOf id = [] ∧
          out.write id (upstreamIn f id).writes = none ∧
            (upstreamIn g id).writes = (upstreamIn f id).writes + 1 := by
      intro f' later same
      rcases ih distinct later with kept | written
      · exact .inl (kept.trans same)
      · rw [same] at written
        exact .inr ⟨List.mem_cons_of_mem _ written.1, written.2⟩
    rw [flushEach] at h
    cases found : f.upstreams.get first with
    | none =>
      rw [found] at h
      exact rest h rfl
    | some u =>
      rw [found] at h
      dsimp only at h
      split at h
      · exact rest h rfl
      · have here : upstreamIn f first = u := by simp [upstreamIn, found]
        cases outcome : out.write first u.writes with
        | some n =>
          rw [writeBuf_error outcome] at h
          cases h
        | none =>
          rw [writeBuf_ok outcome] at h
          dsimp only at h
          by_cases same : id = first
          · subst same
            right
            rcases ih distinct h with kept | ⟨later, _⟩
            · rw [upstreamIn_set, if_pos rfl] at kept
              exact ⟨List.mem_cons_self, by rw [bufOf, kept], by rw [here, outcome], by rw [kept, here]⟩
            · exact (fresh later).elim
          · exact rest h (by rw [upstreamIn_set, if_neg same])

theorem routeAndBuffer_writes {bytes : Bytes} (h : routeAndBuffer out f bytes = (.ok (), g)) (id : Nat) :
    SentOrWritten out id f g := by
  unfold routeAndBuffer at h
  split at h
  · cases h
    exact .inl rfl
  dsimp only at h
  split at h
  · cases h
  rename_i shard target
  rcases step : upstreamOf out { f with routed := f.routed + 1 } shard.id with ⟨e | u, between⟩
  · rw [step] at h
    cases h
  rw [step] at h
  obtain ⟨rfl, here, _, _, others, _⟩ := upstreamOf_ok step
  have same : upstreamIn { f with routed := f.routed + 1 } shard.id = upstreamIn f shard.id := rfl
  rw [same] at h
  have elsewhere : ∀ u, id ≠ shard.id →
      upstreamIn ((between.set shard.id u).accept shard.id bytes) id = upstreamIn f id := by
    intro u different
    rw [upstreamIn, accept_upstreams, ← upstreamIn, upstreamIn_set, if_neg different, upstreamIn,
      others id different]
    rfl
  have there : ∀ u, upstreamIn ((between.set shard.id u).accept shard.id bytes) shard.id = u := by
    intro u
    rw [upstreamIn, accept_upstreams, ← upstreamIn, upstreamIn_set, if_pos rfl]
  dsimp only at h
  unfold bufferLine at h
  split at h
  · cases outcome : out.write shard.id (fill (upstreamIn f shard.id) bytes).writes with
    | some n =>
      rw [writeBuf_error outcome] at h
      cases h
    | none =>
      rw [writeBuf_ok outcome] at h
      cases h
      by_cases target : id = shard.id
      · subst target
        right
        rw [bufOf, there]
        exact ⟨rfl, outcome, rfl⟩
      · left
        rw [sentTo, sentTo, elsewhere _ target]
  · cases h
    left
    by_cases target : id = shard.id
    · subst target
      rw [sentTo, sentTo, there]
      rfl
    · rw [sentTo, sentTo, elsewhere _ target]

theorem perform_writes {call : Call} (h : perform out f call = (.ok (), g)) (id : Nat) :
    g.sentTo id = f.sentTo id ∨
      g.bufOf id = [] ∧ Writes out id f g (f.bufOf id ++ addedFor out f call id) := by
  have either : SentOrWritten out id f g := by
    cases call with
    | line bytes => exact routeAndBuffer_writes h id
    | flush =>
      have each : flushEach out (nextOrder out f) { f with flushes := f.flushes + 1 } = (.ok (), g) := h
      rcases flushEach_writes (nextOrder_nodup out f) each id with kept | ⟨_, written⟩
      · left
        rw [sentTo, kept]
        rfl
      · exact .inr written
  refine either.imp_right fun written => ?_
  obtain ⟨empty, succeeds, one⟩ := written
  refine ⟨empty, succeeds, one, ?_⟩
  have held := (perform_ok_bytes h).2 id
  rwa [IlpForwarder.held, empty, List.append_nil, IlpForwarder.held, List.append_assoc] at held

/-! ### A batch -/

/-- The forwarder after the first calls of a batch. -/
def after (out : Outside) (f : IlpForwarder) (lines : List Str) (k : Nat) : IlpForwarder :=
  (performAll out ((batchCalls lines).take k) f).2

/-- The bytes held for a shard, and the lines that the first calls of the batch route to it. -/
def heldAfter (out : Outside) (f : IlpForwarder) (lines : List Str) (k id : Nat) : Bytes :=
  f.held id ++ (routedTo out id f.routed (textLines ((batchCalls lines).take k))).flatMap terminated

/-- The line is in the chunk of one write to its shard, behind what was held for the shard before the batch and
the earlier lines of the batch. -/
def HandedOver (out : Outside) (f : IlpForwarder) (lines : List Str) (i : Nat) (line : Str) : Prop :=
  ∃ shard, nextShard out (after out f lines i) (asBytes line) = .ok shard ∧ ∃ k before behind, i ≤ k ∧
    Writes out shard.id (after out f lines k) (after out f lines (k + 1))
      (before ++ terminated (asBytes line) ++ behind) ∧
    (after out f lines k).sentTo shard.id ++ before = heldAfter out f lines i shard.id

theorem performAll_take {calls : List Call} (h : performAll out calls f = (.ok (), g)) (k : Nat) :
    ∃ between, performAll out (calls.take k) f = (.ok (), between) ∧
      performAll out (calls.drop k) between = (.ok (), g) := by
  have split := performAll_append out (calls.take k) (calls.drop k) f
  rw [List.take_append_drop, h] at split
  rcases first : performAll out (calls.take k) f with ⟨_ | _, between⟩
  · rw [first] at split
    cases split
  · rw [first] at split
    exact ⟨between, rfl, split.symm⟩

section
variable {lines : List Str} (h : forwardBatch out lines f = (.ok (), g))
include h

theorem after_ok (k : Nat) : performAll out ((batchCalls lines).take k) f = (.ok (), after out f lines k) := by
  have whole : performAll out (batchCalls lines) f = (.ok (), g) := (forwardBatch_eq out lines f).symm.trans h
  obtain ⟨between, ok, _⟩ := performAll_take whole k
  rw [after, ok]

theorem after_call {k : Nat} {call : Call} (there : (batchCalls lines)[k]? = some call) :
    perform out (after out f lines k) call = (.ok (), after out f lines (k + 1)) := by
  have next := after_ok h (k + 1)
  rw [List.take_add_one, there, Option.toList_some, performAll_append, after_ok h k] at next
  dsimp only [performAll] at next
  rcases step : perform out (after out f lines k) call with ⟨_ | _, between⟩
  · rw [step] at next
    cases next
  · rw [step] at next
    exact next

theorem after_held (k id : Nat) : (after out f lines k).held id = heldAfter out f lines k id :=
  (performAll_ok_bytes (after_ok h k)).2 id

theorem after_end {k : Nat} (past : (batchCalls lines).length ≤ k) : after out f lines k = g := by
  have whole : performAll out (batchCalls lines) f = (.ok (), g) := (forwardBatch_eq out lines f).symm.trans h
  rw [after, List.take_of_length_le past, whole]

end

theorem heldAfter_grows (out : Outside) (f : IlpForwarder) (lines : List Str) {i k : Nat} (later : i ≤ k) (id : Nat) :
    heldAfter out f lines i id <+: heldAfter out f lines k id := by
  obtain ⟨more, rfl⟩ := Nat.exists_eq_add_of_le later
  unfold heldAfter
  rw [List.take_add, textLines_append, routedTo_append, List.flatMap_append, ← List.append_assoc]
  exact List.prefix_append _ _

theorem batchCalls_line {lines : List Str} {i : Nat} {line : Str} (there : lines[i]? = some line) :
    (batchCalls lines)[i]? = some (.line (asBytes line)) := by
  unfold batchCalls
  have inside := (List.getElem?_eq_some_iff.mp there).1
  rw [List.getElem?_append_left (by simpa using inside), List.getElem?_map, there]
  rfl

theorem after_line {lines : List Str} {i : Nat} {line : Str} (h : forwardBatch out lines f = (.ok (), g))
    (there : lines[i]? = some line) (text : isBlank (asBytes line) = false) :
    ∃ shard, nextShard out (after out f lines i) (asBytes line) = .ok shard ∧
      heldAfter out f lines (i + 1) shard.id =
        heldAfter out f lines i shard.id ++ terminated (asBytes line) := by
  have call := after_call h (batchCalls_line there)
  have grows := (perform_ok_bytes call).2
  obtain ⟨shard, target⟩ : ∃ shard, nextShard out (after out f lines i) (asBytes line) = .ok shard := by
    generalize after out f lines (i + 1) = next at call
    cases lineStep_of call with
    | blank blank =>
      rw [text] at blank
      cases blank
    | buffered _ target _ _ _ _ _ _ => exact ⟨_, target⟩
  have step := grows shard.id
  rw [after_held h, after_held h, addedFor_target text target, if_pos rfl] at step
  exact ⟨shard, target, step⟩

theorem sent_within {lines : List Str} (h : forwardBatch out lines f = (.ok (), g)) (k id : Nat) :
    (after out f lines k).sentTo id <+: heldAfter out f lines k id := by
  rw [← after_held h]
  exact List.prefix_append _ _

theorem sent_at_end {lines : List Str} (h : forwardBatch out lines f = (.ok (), g)) {i k : Nat} (later : i ≤ k)
    (past : (batchCalls lines).length ≤ k) (id : Nat) :
    heldAfter out f lines i id <+: (after out f lines k).sentTo id := by
  have all := heldAfter_grows out f lines later id
  rwa [← after_held h k, after_end h past, (forwardBatch_drains h).held, ← after_end h past] at all

/-- Some call after the line is the first after which more was sent than was held before the line. -/
theorem sent_crosses {lines : List Str} (h : forwardBatch out lines f = (.ok (), g)) {i id : Nat}
    (grows : (heldAfter out f lines i id).length < (heldAfter out f lines (i + 1) id).length) :
    ∃ k call, i ≤ k ∧ (batchCalls lines)[k]? = some call ∧
      ((after out f lines k).sentTo id).length ≤ (heldAfter out f lines i id).length ∧
      (heldAfter out f lines i id).length < ((after out f lines (k + 1)).sentTo id).length := by
  let goesBeyond (j : Nat) : Prop :=
    (heldAfter out f lines i id).length < ((after out f lines (i + j)).sentTo id).length
  have notYet : ¬ goesBeyond 0 := Nat.not_lt.mpr (sent_within h i id).length_le
  have atEnd : goesBeyond ((batchCalls lines).length + 1) := by
    have all := sent_at_end h (show i + 1 ≤ i + ((batchCalls lines).length + 1) by omega) (by omega) id
    exact Nat.lt_of_lt_of_le grows all.length_le
  obtain ⟨j, short, crossed⟩ := Nat.exists_not_and_succ_of_not_zero_of_exists notYet ⟨_, atEnd⟩
  obtain ⟨call, next⟩ : ∃ call, (batchCalls lines)[i + j]? = some call := by
    by_contra none
    have past : (batchCalls lines).length ≤ i + j := by
      rw [← List.getElem?_eq_none_iff, Option.eq_none_iff_forall_ne_some]
      exact fun call there => none ⟨call, there⟩
    have same : after out f lines (i + j) = after out f lines (i + (j + 1)) := by
      rw [after_end h past, after_end h (by omega)]
    refine short ?_
    change _ < ((after out f lines (i + j)).sentTo id).length
    rw [same]
    exact crossed
  exact ⟨i + j, call, Nat.le_add_right i j, next, Nat.not_lt.mp short, crossed⟩

/-- A batch that succeeds has handed over each of its lines that is not blank. -/
theorem forwardBatch_handsOver {lines : List Str} (h : forwardBatch out lines f = (.ok (), g)) {i : Nat} {line : Str}
    (there : lines[i]? = some line) (text : isBlank (asBytes line) = false) : HandedOver out f lines i line := by
  obtain ⟨shard, target, adds⟩ := after_line h there text
  have grows : (heldAfter out f lines i shard.id).length < (heldAfter out f lines (i + 1) shard.id).length := by
    have nonempty := List.length_pos_iff.mpr (terminated_ne_nil (asBytes line))
    rw [adds, List.length_append]
    omega
  obtain ⟨k, call, later, next, short, crossed⟩ := sent_crosses h grows
  refine ⟨shard, target, ?_⟩
  rcases perform_writes (after_call h next) shard.id with kept | ⟨empty, written⟩
  · rw [kept] at crossed
    omega
  -- that call wrote everything out, and before it nothing of the line was sent
  obtain ⟨behind, rest⟩ := heldAfter_grows out f lines (show i + 1 ≤ k + 1 by omega) shard.id
  have whole : (after out f lines (k + 1)).sentTo shard.id =
      heldAfter out f lines i shard.id ++ terminated (asBytes line) ++ behind := by
    have held := after_held h (k + 1) shard.id
    rw [IlpForwarder.held, empty, List.append_nil] at held
    rw [held, ← rest, adds]
  have sentFirst : (after out f lines k).sentTo shard.id <+: (after out f lines (k + 1)).sentTo shard.id := by
    rw [written.sent]
    exact List.prefix_append _ _
  have lineFirst : heldAfter out f lines i shard.id <+: (after out f lines (k + 1)).sentTo shard.id := by
    rw [whole, List.append_assoc]
    exact List.prefix_append _ _
  obtain ⟨before, split⟩ := List.prefix_of_prefix_length_le sentFirst lineFirst short
  refine ⟨k, before, behind, later, ⟨written.succeeds, written.one, ?_⟩, split⟩
  rw [whole, ← split]
  simp only [List.append_assoc]

/-- A line that is blank is not handed over where nothing of the batch is. -/
theorem not_handsOver_of_blank {lines : List Str} (h : forwardBatch out lines f = (.ok (), g))
    (blank : ∀ line ∈ lines, isBlank (asBytes line) = true) (i : Nat) (line : Str) : ¬ HandedOver out f lines i line := by
  rintro ⟨shard, _, k, before, behind, _, written, position⟩
  have nothing : ∀ n, heldAfter out f lines n shard.id = f.held shard.id := by
    intro n
    have none : textLines ((batchCalls lines).take n) = [] := by
      rw [textLines, List.filterMap_eq_nil_iff]
      intro call member
      rcases List.mem_append.mp (List.mem_of_mem_take member) with early | last
      · obtain ⟨line, inside, rfl⟩ := List.mem_map.mp early
        exact if_pos (blank line inside)
      · rw [List.mem_singleton.mp last]
    unfold heldAfter
    rw [none]
    exact List.append_nil _
  have within : (after out f lines (k + 1)).sentTo shard.id <+: f.held shard.id := by
    rw [← nothing (k + 1)]
    exact sent_within h (k + 1) shard.id
  rw [written.sent, ← List.append_assoc, ← List.append_assoc, position, nothing] at within
  have bound := within.length_le
  have nonempty := List.length_pos_iff.mpr (terminated_ne_nil (asBytes line))
  simp only [List.length_append] at bound
  omega

end IlpForwarder
end QuestRouter.Protocol
