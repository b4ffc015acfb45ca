import QuestRouter.Protocol.IlpHeld

/-!
# Bytes a batch leaves

A batch adds its lines to the bytes held for their shards. One that fails may have added some of them
already, and they are added again when it is retried.
-/

namespace QuestRouter.Protocol
open Text Routing Metadata

namespace IlpForwarder

theorem perform_ok_bytes {out : Outside} {f g : IlpForwarder} {call : Call}
    (h : perform out f call = (.ok (), g)) :
    g.routed = f.routed + (textLines [call]).length ∧
      ∀ id, g.held id = f.held id ++ addedFor out f call id := by
  have bytes := perform_bytes out f call
  rw [h] at bytes
  exact ⟨(perform_accepted 0 h).2, fun id => bytes.added id rfl⟩

theorem performAll_ok_bytes {out : Outside} {f g : IlpForwarder} {calls : List Call}
    (h : performAll out calls f = (.ok (), g)) :
    g.routed = f.routed + (textLines calls).length ∧
      ∀ id, g.held id = f.held id ++ (routedTo out id f.routed (textLines calls)).flatMap terminated := by
  induction calls generalizing f with
  | nil =>
    obtain rfl : f = g := congrArg Prod.snd h
    exact ⟨rfl, fun id => by simp [textLines, routedTo]⟩
  | cons call calls ih =>
    rcases step : perform out f call with ⟨_ | _, between⟩
    · rw [performAll_error calls step] at h
      cases h
    · rw [performAll_ok calls step] at h
      obtain ⟨counted, held⟩ := ih h
      obtain ⟨first, added⟩ := perform_ok_bytes step
      have split : textLines (call :: calls) = textLines [call] ++ textLines calls := textLines_append [call] calls
      refine ⟨?_, fun id => ?_⟩
      · rw [counted, first, split, List.length_append, Nat.add_assoc]
      · rw [held, added, first, split, routedTo_append, List.flatMap_append, addedFor, List.append_assoc]

/-- The bytes of a shard have a line of the batch beyond those they had before. They go out in order, so
the lines before it are there too. -/
def HoldsLine (out : Outside) (f : IlpForwarder) (lines : List Bytes) (g : IlpForwarder) : Prop :=
  ∃ id before line after, routedTo out id f.routed lines = before ++ line :: after ∧
    f.held id ++ (before ++ [line]).flatMap terminated <+: g.held id

def HoldsFirst (out : Outside) (f : IlpForwarder) (lines : List Bytes) (g : IlpForwarder) (id : Nat) : Prop :=
  ∃ first rest, routedTo out id f.routed lines = first :: rest ∧ f.held id ++ terminated first <+: g.held id

theorem holdsLine_iff {out : Outside} {f g : IlpForwarder} {lines : List Bytes} :
    HoldsLine out f lines g ↔ ∃ id, HoldsFirst out f lines g id := by
  constructor
  · rintro ⟨id, before, line, after, routed, there⟩
    cases before with
    | nil => exact ⟨id, line, after, routed, by simpa using there⟩
    | cons first before =>
      refine ⟨id, first, before ++ line :: after, routed, List.IsPrefix.trans ?_ there⟩
      exact ⟨(before ++ [line]).flatMap terminated, by simp⟩
  · rintro ⟨id, first, rest, routed, there⟩
    exact ⟨id, [], first, rest, routed, by simpa using there⟩

/-- The call that ends a batch leaves no line of it: the earlier calls of the batch routed nothing to the
shards it does not write to, and the write that fails stops before the end of the first line. -/
structure FailsClean (out : Outside) (f : IlpForwarder) (done : List Bytes) (h : IlpForwarder) (call : Call) :
    Prop where
  others : ∀ id, (∀ n, failingWrite out h call ≠ some (id, n)) → routedTo out id f.routed done = []
  short : ∀ id n, failingWrite out h call = some (id, n) → ∀ first rest,
    routedTo out id f.routed (done ++ textLines [call]) = first :: rest →
      (h.sentTo id).length + n < (f.held id).length + (terminated first).length

/-- The batch does not fail, or the call that fails leaves no line of it. -/
def StopsClean (out : Outside) (f : IlpForwarder) : List Bytes → List Call → IlpForwarder → Prop
  | _, [], _ => True
  | done, call :: calls, h =>
    (Fails out h call → FailsClean out f done h call) ∧
      (¬ Fails out h call → StopsClean out f (done ++ textLines [call]) calls (perform out h call).2)

theorem terminated_ne_nil (line : Bytes) : terminated line ≠ [] := by
  unfold terminated
  split
  · rename_i last
    rintro rfl
    cases last
  · exact List.append_ne_nil_of_right_ne_nil _ (List.cons_ne_nil _ _)

theorem not_longer {whole part : Bytes} {line : Bytes} (short : part <+: whole) :
    ¬ whole ++ terminated line <+: part := by
  intro long
  have bound := (long.trans short).length_le
  have some := List.length_pos_iff.mpr (terminated_ne_nil line)
  rw [List.length_append] at bound
  omega

theorem begins_iff_length {a b whole : Bytes} (left : a <+: whole) (right : b <+: whole) :
    a <+: b ↔ a.length ≤ b.length :=
  ⟨List.IsPrefix.length_le, fun shorter => List.prefix_of_prefix_length_le left right shorter⟩

section
variable {out : Outside} {f h : IlpForwarder} {done later : List Bytes} {call : Call}
  (failed : (perform out h call).1 ≠ .ok ()) (counted : h.routed = f.routed + done.length)
  (held : ∀ id, h.held id = f.held id ++ (routedTo out id f.routed done).flatMap terminated)

include failed held in
theorem kept_holdsFirst {id : Nat} (other : ∀ n, failingWrite out h call ≠ some (id, n)) :
    HoldsFirst out f (done ++ later) (perform out h call).2 id ↔ routedTo out id f.routed done ≠ [] := by
  have bytes := ((perform_bytes out h call).kept id failed other).trans (held id)
  unfold HoldsFirst
  rw [bytes, routedTo_append]
  cases routed : routedTo out id f.routed done with
  | nil =>
    refine iff_of_false ?_ (fun some => some rfl)
    rintro ⟨first, rest, _, there⟩
    have longer : f.held id ++ terminated first <+: f.held id := by simpa using there
    exact not_longer List.prefix_rfl longer
  | cons first rest =>
    refine iff_of_true ⟨first, _, rfl, ?_⟩ (List.cons_ne_nil _ _)
    exact ⟨rest.flatMap terminated, by simp⟩

include counted held in
theorem cut_part {id n : Nat} (failing : failingWrite out h call = some (id, n)) :
    (perform out h call).2.bufOf id = [] ∧
      (perform out h call).2.sentTo id <+:
        f.held id ++ (routedTo out id f.routed (done ++ textLines [call])).flatMap terminated ∧
      ((perform out h call).2.sentTo id).length = min ((h.sentTo id).length + n)
        (f.held id ++ (routedTo out id f.routed (done ++ textLines [call])).flatMap terminated).length := by
  obtain ⟨_, empty, sent⟩ := (perform_bytes out h call).cut id n failing
  -- All that the write could get out.
  have all : h.sentTo id ++ (h.bufOf id ++ addedFor out h call id) =
      f.held id ++ (routedTo out id f.routed (done ++ textLines [call])).flatMap terminated := by
    rw [← List.append_assoc, ← IlpForwarder.held, held, addedFor, counted, routedTo_append,
      List.flatMap_append, List.append_assoc]
  refine ⟨empty, ?_, ?_⟩
  · rw [sent, ← all, List.prefix_append_right_inj]
    exact List.take_prefix _ _
  · rw [sent, ← all, List.length_append, List.length_append, List.length_take]
    omega

include counted held in
theorem cut_holdsFirst {id n : Nat} (failing : failingWrite out h call = some (id, n)) :
    HoldsFirst out f (done ++ textLines [call] ++ later) (perform out h call).2 id ↔
      ∃ first rest, routedTo out id f.routed (done ++ textLines [call]) = first :: rest ∧
        (f.held id).length + (terminated first).length ≤ (h.sentTo id).length + n := by
  obtain ⟨empty, part, length⟩ := cut_part counted held failing
  have sent : (perform out h call).2.held id = (perform out h call).2.sentTo id := by
    rw [IlpForwarder.held, empty, List.append_nil]
  rw [← sent] at part length
  unfold HoldsFirst
  rw [routedTo_append out id f.routed (done ++ textLines [call])]
  cases routed : routedTo out id f.routed (done ++ textLines [call]) with
  | nil =>
    rw [routed] at part
    refine iff_of_false ?_ (by simp)
    rintro ⟨first, rest, _, there⟩
    exact not_longer (by simpa using part) there
  | cons first rest =>
    rw [routed] at part length
    have begins : f.held id ++ terminated first <+: f.held id ++ (first :: rest).flatMap terminated := by
      rw [List.prefix_append_right_inj, List.flatMap_cons]
      exact List.prefix_append _ _
    have short := begins.length_le
    have same : f.held id ++ terminated first <+: (perform out h call).2.held id ↔
        (f.held id).length + (terminated first).length ≤ (h.sentTo id).length + n := by
      rw [begins_iff_length begins part, length, List.length_append]
      rw [List.length_append] at short
      omega
    constructor
    · rintro ⟨line, lines, eq, there⟩
      obtain ⟨rfl, _⟩ := List.cons.inj eq
      exact ⟨_, _, rfl, same.mp there⟩
    · rintro ⟨line, lines, eq, enough⟩
      obtain ⟨rfl, _⟩ := List.cons.inj eq
      exact ⟨_, _, rfl, same.mpr enough⟩

include failed counted held in
theorem not_holdsLine_iff :
    ¬ HoldsLine out f (done ++ textLines [call] ++ later) (perform out h call).2 ↔
      FailsClean out f done h call := by
  rw [holdsLine_iff, not_exists]
  constructor
  · intro none
    refine ⟨fun id other => ?_, fun id n failing first rest routed => ?_⟩
    · have not := none id
      rwa [List.append_assoc, kept_holdsFirst failed held other, not_not] at not
    · have not := none id
      rw [cut_holdsFirst counted held failing] at not
      by_contra long
      exact not ⟨first, rest, routed, Nat.le_of_not_lt long⟩
  · intro clean id
    by_cases cut : ∃ n, failingWrite out h call = some (id, n)
    · obtain ⟨n, failing⟩ := cut
      rw [cut_holdsFirst counted held failing]
      rintro ⟨first, rest, routed, enough⟩
      exact Nat.not_le_of_lt (clean.short id n failing first rest routed) enough
    · have other := not_exists.mp cut
      rw [List.append_assoc, kept_holdsFirst failed held other, not_not]
      exact clean.others id other

end

/-- Calls that fail leave no line of their batch exactly if the call that ends them fails clean. -/
theorem performAll_holdsLine_iff {out : Outside} {f h : IlpForwarder} {done : List Bytes} (calls : List Call)
    (counted : h.routed = f.routed + done.length)
    (held : ∀ id, h.held id = f.held id ++ (routedTo out id f.routed done).flatMap terminated) :
    ((performAll out calls h).1 ≠ .ok () →
      ¬ HoldsLine out f (done ++ textLines calls) (performAll out calls h).2) ↔
        StopsClean out f done calls h := by
  induction calls generalizing h done with
  | nil => exact iff_of_true (fun failed => (failed rfl).elim) trivial
  | cons call calls ih =>
    have split : done ++ textLines (call :: calls) = done ++ textLines [call] ++ textLines calls := by
      rw [List.append_assoc, ← textLines_append]
      rfl
    rw [split]
    by_cases fails : Fails out h call
    · obtain ⟨e, step⟩ := perform_of_fails fails
      have failed := (fails_iff out h call).mp fails
      rw [performAll_error calls step, StopsClean, not_holdsLine_iff failed counted held]
      simp [fails]
    · have step := perform_of_not_fails fails
      obtain ⟨more, added⟩ := perform_ok_bytes step
      rw [performAll_ok calls step, StopsClean]
      simp only [fails, false_implies, true_and, not_false_eq_true, true_implies]
      refine ih ?_ fun id => ?_
      · rw [more, counted, List.length_append, Nat.add_assoc]
      · rw [added, held, addedFor, counted, routedTo_append, List.flatMap_append, List.append_assoc]

theorem forwardBatch_holdsLine_iff (out : Outside) (f : IlpForwarder) (lines : List Str) :
    ((forwardBatch out lines f).1 ≠ .ok () →
      ¬ HoldsLine out f (textLines (batchCalls lines)) (forwardBatch out lines f).2) ↔
        StopsClean out f [] (batchCalls lines) f := by
  have held : ∀ id, f.held id = f.held id ++ (routedTo out id f.routed []).flatMap terminated :=
    fun id => by simp [routedTo]
  rw [forwardBatch_eq]
  exact performAll_holdsLine_iff (batchCalls lines) rfl held

/-! ### Batches that find no buffer filled -/

def Drained (f : IlpForwarder) : Prop := ∀ id, f.bufOf id = []

theorem drained_new : Drained {} := fun _ => rfl

theorem Drained.held {f : IlpForwarder} (drained : Drained f) (id : Nat) : f.held id = f.sentTo id := by
  rw [IlpForwarder.held, drained id, List.append_nil]

theorem flush_drained {out : Outside} {f : IlpForwarder} (ok : (flush out f).1 = .ok ()) :
    Drained (flush out f).2 := by
  have each := flushEach_bytes out { f with flushes := f.flushes + 1 } (nextOrder_nodup out f)
  cases failing : failingFlush out { f with flushes := f.flushes + 1 } (nextOrder out f) with
  | some failure =>
    rw [failing] at each
    exact (each.1 ok).elim
  | none =>
    rw [failing] at each
    intro id
    obtain ⟨held, grows, emptied⟩ := each.2 id
    cases found : f.upstreams.get id with
    | some u => exact emptied (mem_nextOrder found)
    | none =>
      have empty : f.bufOf id = [] := by simp [bufOf, upstreamIn, found]
      exact (settled_of_held held empty grows).1

/-- A batch that succeeds ends with a flush that does. -/
theorem forwardBatch_drains {out : Outside} {f g : IlpForwarder} {lines : List Str}
    (h : forwardBatch out lines f = (.ok (), g)) : Drained g := by
  have whole : performAll out (batchCalls lines) f = (.ok (), g) := (forwardBatch_eq out lines f).symm.trans h
  unfold batchCalls at whole
  rw [performAll_append] at whole
  rcases before : performAll out (lines.map fun line => .line (asBytes line)) f with ⟨_ | _, between⟩
  · rw [before] at whole
    cases whole
  · rw [before] at whole
    simp only [performAll, perform] at whole
    rcases step : flush out between with ⟨_ | _, after⟩
    · rw [step] at whole
      cases whole
    · rw [step] at whole
      obtain rfl : after = g := congrArg Prod.snd whole
      have empties := flush_drained (congrArg Prod.fst step)
      rwa [step] at empties

theorem forwardBatch_sent {out : Outside} {f g : IlpForwarder} {lines : List Str} (drained : Drained f)
    (h : forwardBatch out lines f = (.ok (), g)) :
    Drained g ∧ g.routed = f.routed + (textLines (batchCalls lines)).length ∧
      ∀ id, g.sentTo id =
        f.sentTo id ++ (routedTo out id f.routed (textLines (batchCalls lines))).flatMap terminated := by
  have whole : performAll out (batchCalls lines) f = (.ok (), g) := (forwardBatch_eq out lines f).symm.trans h
  obtain ⟨counted, held⟩ := performAll_ok_bytes whole
  have last : Drained g := forwardBatch_drains h
  refine ⟨last, counted, fun id => ?_⟩
  rw [← last.held, held, drained.held]

def Fragment (lines : List Bytes) (part : Bytes) : Prop :=
  ∃ line ∈ lines, part <+: terminated line ∧ part.length < (terminated line).length

/-- What a failing call leaves of a batch, for a shard that had nothing waiting before the batch. -/
def LeavesFragment (f : IlpForwarder) (lines : List Bytes) (g : IlpForwarder) (id : Nat) : Prop :=
  g.bufOf id = [] ∧ (g.sentTo id = f.sentTo id ∨ ∃ part, Fragment lines part ∧ g.sentTo id = f.sentTo id ++ part)

theorem perform_fragment {out : Outside} {f h : IlpForwarder} {done : List Bytes} {call : Call}
    (drained : Drained f) (counted : h.routed = f.routed + done.length)
    (held : ∀ id, h.held id = f.held id ++ (routedTo out id f.routed done).flatMap terminated)
    (grows : ∀ id, f.sentTo id <+: h.sentTo id) (failed : (perform out h call).1 ≠ .ok ())
    (clean : FailsClean out f done h call) (id : Nat) :
    LeavesFragment f (done ++ textLines [call]) (perform out h call).2 id := by
  have bytes := perform_bytes out h call
  have longer := (grows id).trans (bytes.grows id)
  by_cases cut : ∃ n, failingWrite out h call = some (id, n)
  · obtain ⟨n, failing⟩ := cut
    obtain ⟨empty, part, length⟩ := cut_part counted held failing
    refine ⟨empty, ?_⟩
    obtain ⟨more, same⟩ := longer
    rw [drained.held, ← same, List.prefix_append_right_inj] at part
    rw [← same]
    cases routed : routedTo out id f.routed (done ++ textLines [call]) with
    | nil =>
      rw [routed] at part
      rw [List.prefix_nil.mp part, List.append_nil]
      exact .inl rfl
    | cons first rest =>
      refine .inr ⟨more, ⟨first, ?_, ?_, ?_⟩, rfl⟩
      · exact mem_routedTo (routed ▸ List.mem_cons_self)
      all_goals
        have short := clean.short id n failing first rest routed
        rw [← same, drained.held, List.length_append] at length
        rw [drained.held] at short
        rw [routed, List.flatMap_cons] at part
      · exact List.prefix_of_prefix_length_le part (List.prefix_append _ _) (by omega)
      · omega
  · have other := not_exists.mp cut
    have same : (perform out h call).2.held id = f.held id := by
      rw [bytes.kept id failed other, held, clean.others id other, List.flatMap_nil, List.append_nil]
    obtain ⟨empty, sent⟩ := settled_of_held same (drained id) longer
    exact ⟨empty, .inl sent⟩

theorem LeavesFragment.more {f g : IlpForwarder} {lines : List Bytes} {id : Nat}
    (leaves : LeavesFragment f lines g id) (later : List Bytes) : LeavesFragment f (lines ++ later) g id := by
  obtain ⟨empty, same | ⟨part, ⟨line, member, short⟩, sent⟩⟩ := leaves
  · exact ⟨empty, .inl same⟩
  · exact ⟨empty, .inr ⟨part, ⟨line, List.mem_append_left _ member, short⟩, sent⟩⟩

theorem performAll_fragment {out : Outside} {f h : IlpForwarder} {done : List Bytes} {calls : List Call}
    (drained : Drained f) (counted : h.routed = f.routed + done.length)
    (held : ∀ id, h.held id = f.held id ++ (routedTo out id f.routed done).flatMap terminated)
    (grows : ∀ id, f.sentTo id <+: h.sentTo id) (failed : (performAll out calls h).1 ≠ .ok ())
    (clean : StopsClean out f done calls h) (id : Nat) :
    LeavesFragment f (done ++ textLines calls) (performAll out calls h).2 id := by
  induction calls generalizing h done with
  | nil => exact (failed rfl).elim
  | cons call calls ih =>
    have split : done ++ textLines (call :: calls) = done ++ textLines [call] ++ textLines calls := by
      rw [List.append_assoc, ← textLines_append]
      rfl
    rw [split]
    by_cases fails : Fails out h call
    · obtain ⟨e, step⟩ := perform_of_fails fails
      rw [performAll_error calls step]
      exact (perform_fragment drained counted held grows ((fails_iff out h call).mp fails)
        (clean.1 fails) id).more _
    · have step := perform_of_not_fails fails
      obtain ⟨more, added⟩ := perform_ok_bytes step
      rw [performAll_ok calls step] at failed ⊢
      refine ih ?_ (fun id => ?_) (fun id => ?_) failed (clean.2 fails)
      · rw [more, counted, List.length_append, Nat.add_assoc]
      · rw [added, held, addedFor, counted, routedTo_append, List.flatMap_append, List.append_assoc]
      · exact (grows id).trans ((perform_bytes out h call).grows id)

/-- A batch that stops clean leaves no buffer filled, and has sent at most a part of a line to a shard. -/
theorem forwardBatch_fragment {out : Outside} {f g : IlpForwarder} {lines : List Str} {e : ForwardError}
    (drained : Drained f) (h : forwardBatch out lines f = (.error e, g))
    (clean : StopsClean out f [] (batchCalls lines) f) (id : Nat) :
    LeavesFragment f (textLines (batchCalls lines)) g id := by
  have whole : performAll out (batchCalls lines) f = (.error e, g) := (forwardBatch_eq out lines f).symm.trans h
  have held : ∀ id, f.held id = f.held id ++ (routedTo out id f.routed []).flatMap terminated :=
    fun id => by simp [routedTo]
  have failed : (performAll out (batchCalls lines) f).1 ≠ .ok () := by
    simp [whole]
  have leaves := performAll_fragment drained rfl held (fun _ => List.prefix_rfl) failed clean id
  rwa [whole] at leaves

end IlpForwarder
end QuestRouter.Protocol
