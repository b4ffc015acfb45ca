import QuestRouter.Protocol.Ilp

/-!
# Failures of one shard

A call that fails ends the connection or the batch at once, and nothing writes out the buffers that
are still filled. So what was accepted for the other shards has been sent exactly if no other shard
had a filled buffer when the call failed.
-/

namespace QuestRouter.Protocol
open Text Routing Metadata IlpForwarder

/-- Every line accepted for a shard whose connection has not failed has been handed to its stream. -/
def Delivered (f : IlpForwarder) : Prop :=
  ∀ id, (upstreamIn f id).failed = false → f.sentTo id = f.acceptedFor id

theorem delivered_iff_settled {f : IlpForwarder} (account : Accounted f) : Delivered f ↔ Settled f := by
  constructor
  · intro delivered id u found unfailed
    have sent := delivered id (by simp [upstreamIn, found, unfailed])
    have accepted := account.present id u found unfailed
    simp only [sentTo, upstreamIn, found, Option.getD_some] at sent
    rw [sent] at accepted
    simpa using accepted
  · exact fun settled id works => sentTo_settled account settled id works

/-! ### When a call fails -/

def LineFails (out : Outside) (f : IlpForwarder) (line : Bytes) : Prop :=
  isBlank line = false ∧
    match nextShard out f line with
    | .error _ => True
    | .ok shard =>
      f.upstreams.get shard.id = none ∧ out.connect f.connects = false ∨
        (f.upstreams.get shard.id = none → out.connect f.connects = true) ∧
          EarlyWriteFails out f shard.id line

def FlushFails (out : Outside) (f : IlpForwarder) : Prop :=
  ∃ id ∈ nextOrder out f, (upstreamIn f id).buf ≠ [] ∧ (out.write id (upstreamIn f id).writes).isSome = true

def Fails (out : Outside) (f : IlpForwarder) : Call → Prop
  | .line bytes => LineFails out f bytes
  | .flush => FlushFails out f

theorem lineFails_iff (out : Outside) (f : IlpForwarder) (line : Bytes) :
    LineFails out f line ↔ (routeAndBuffer out f line).1 ≠ .ok () := by
  rcases step : routeAndBuffer out f line with ⟨r, g⟩
  cases lineStep_of step with
  | blank blank => simp [LineFails, blank]
  | unrouted text target => simp [LineFails, text, target]
  | refused text target absent refused => simp [LineFails, text, target, absent, refused]
  | broken text target connected fails =>
    simp only [LineFails, text, target]
    exact iff_of_true ⟨trivial, .inr ⟨connected, fails⟩⟩ (by simp)
  | buffered text target connected fits =>
    simp only [LineFails, text, target]
    refine iff_of_false ?_ (by simp)
    rintro ⟨_, ⟨absent, refused⟩ | ⟨_, early⟩⟩
    · rw [connected absent] at refused
      cases refused
    · exact fits early

theorem flushEach_error {out : Outside} {f : IlpForwarder} {ids : List Nat} (nodup : ids.Nodup) :
    (flushEach out ids f).1 ≠ .ok () ↔
      ∃ id ∈ ids, (upstreamIn f id).buf ≠ [] ∧ (out.write id (upstreamIn f id).writes).isSome = true := by
  induction ids generalizing f with
  | nil => simp [flushEach]
  | cons first ids ih =>
    obtain ⟨fresh, nodup⟩ := List.nodup_cons.mp nodup
    rw [flushEach]
    cases found : f.upstreams.get first with
    | none => simp [ih nodup, upstreamIn, found]
    | some u =>
      have here : upstreamIn f first = u := by simp [upstreamIn, found]
      dsimp only
      by_cases empty : u.buf = []
      · simp [empty, ih nodup, here]
      · rw [if_neg (by simpa using empty)]
        cases outcome : out.write first u.writes with
        | some n =>
          rw [writeBuf_error outcome]
          simp [here, empty, outcome]
        | none =>
          rw [writeBuf_ok outcome]
          simp only [ih nodup, List.mem_cons, exists_eq_or_imp, here, outcome]
          simp only [Option.isSome_none, Bool.false_eq_true, and_false, false_or]
          refine exists_congr fun id => and_congr_right fun member => ?_
          have different : id ≠ first := fun eq => fresh (eq ▸ member)
          simp [upstreamIn, get_set, different]

theorem fails_iff (out : Outside) (f : IlpForwarder) (call : Call) :
    Fails out f call ↔ (perform out f call).1 ≠ .ok () := by
  cases call with
  | line bytes => exact lineFails_iff out f bytes
  | flush => exact (flushEach_error (f := { f with flushes := f.flushes + 1 }) (nextOrder_nodup out f)).symm

theorem perform_of_fails {out : Outside} {f : IlpForwarder} {call : Call} (fails : Fails out f call) :
    ∃ e, perform out f call = (.error e, (perform out f call).2) := by
  rw [fails_iff] at fails
  rcases step : perform out f call with ⟨e | _, g⟩
  · exact ⟨e, rfl⟩
  · exact (fails (congrArg Prod.fst step)).elim

theorem perform_of_not_fails {out : Outside} {f : IlpForwarder} {call : Call}
    (succeeds : ¬ Fails out f call) : perform out f call = (.ok (), (perform out f call).2) := by
  rw [fails_iff, not_not] at succeeds
  exact Prod.ext succeeds rfl

/-! ### What a failing call leaves behind -/

def targetOf (out : Outside) (f : IlpForwarder) (line : Bytes) : Option Nat :=
  match nextShard out f line with
  | .ok shard => some shard.id
  | .error _ => none

/-- The shards whose buffers a call leaves alone if it fails. -/
def LeftAlone (out : Outside) (f : IlpForwarder) (id : Nat) : Call → Prop
  | .line bytes => targetOf out f bytes ≠ some id
  | .flush => id ∈ unreached out f (nextOrder out f)

/-- None of the shards that the call leaves alone works and has a filled buffer. -/
def OthersEmpty (out : Outside) (f : IlpForwarder) (call : Call) : Prop :=
  ∀ id u, LeftAlone out f id call → f.upstreams.get id = some u → u.failed = false → u.buf = []

theorem line_settled_iff {out : Outside} {f : IlpForwarder} {line : Bytes} (fails : LineFails out f line) :
    Settled (routeAndBuffer out f line).2 ↔ OthersEmpty out f (.line line) := by
  rw [lineFails_iff] at fails
  rcases step : routeAndBuffer out f line with ⟨r, g⟩
  rw [step] at fails
  cases lineStep_of step with
  | blank => exact (fails rfl).elim
  | buffered => exact (fails rfl).elim
  | unrouted text target same =>
    simp [Settled, OthersEmpty, LeftAlone, targetOf, target, same]
  | @refused _ shard text target absent refused same =>
    simp only [Settled, OthersEmpty, LeftAlone, targetOf, target, same]
    refine forall₂_congr fun id u => ⟨fun h _ => h, fun h found => h ?_ found⟩
    rintro ⟨⟩
    rw [absent] at found
    cases found
  | @broken _ shard u text target connected early failed upstreams =>
    simp only [Settled, OthersEmpty, LeftAlone, targetOf, target, upstreams]
    refine forall₂_congr fun id v => ?_
    by_cases same : id = shard.id
    · subst same
      simp only [if_true, Option.some.injEq, ne_eq, not_true, false_implies, iff_true]
      rintro rfl unfailed
      rw [failed] at unfailed
      cases unfailed
    · simp [same, Ne.symm same]

theorem settled_iff {out : Outside} {f : IlpForwarder} {call : Call} (fails : Fails out f call) :
    Settled (perform out f call).2 ↔ OthersEmpty out f call := by
  cases call with
  | line bytes => exact line_settled_iff fails
  | flush =>
    rw [show (perform out f .flush).2 = (flush out f).2 from rfl, flush_settled_iff]
    exact ⟨fun h id u behind => h id behind u, fun h id behind u => h id u behind⟩

/-! ### Runs -/

/-- Every call of the run that fails finds the buffers of the other shards empty. -/
def FailsAlone (out : Outside) : List Call → IlpForwarder → Prop
  | [], _ => True
  | call :: calls, f =>
    (Fails out f call → OthersEmpty out f call) ∧
      (¬ Fails out f call → FailsAlone out calls (perform out f call).2)

theorem failsAlone_of_fails {out : Outside} {f : IlpForwarder} {call : Call} (calls : List Call)
    (fails : Fails out f call) : FailsAlone out (call :: calls) f ↔ OthersEmpty out f call := by
  simp [FailsAlone, fails]

theorem failsAlone_of_not_fails {out : Outside} {f : IlpForwarder} {call : Call} (calls : List Call)
    (succeeds : ¬ Fails out f call) :
    FailsAlone out (call :: calls) f ↔ FailsAlone out calls (perform out f call).2 := by
  simp [FailsAlone, succeeds]

/-- A run that ends with a flush leaves no filled buffer behind exactly if its calls fail alone. -/
theorem performAll_settled_iff (out : Outside) (calls : List Call) (f : IlpForwarder) :
    Settled (performAll out (calls ++ [.flush]) f).2 ↔ FailsAlone out (calls ++ [.flush]) f := by
  induction calls generalizing f with
  | nil =>
    rw [List.nil_append]
    by_cases fails : Fails out f .flush
    · obtain ⟨e, step⟩ := perform_of_fails fails
      rw [performAll_error [] step, failsAlone_of_fails [] fails, settled_iff fails]
    · have step := perform_of_not_fails fails
      rw [failsAlone_of_not_fails [] fails]
      have ok : (performAll out ([] ++ [.flush]) f).1 = .ok () := by
        rw [List.nil_append, performAll_ok [] step]
        rfl
      exact iff_of_true (performAll_settled ok) trivial
  | cons call calls ih =>
    rw [List.cons_append]
    by_cases fails : Fails out f call
    · obtain ⟨e, step⟩ := perform_of_fails fails
      rw [performAll_error _ step, failsAlone_of_fails _ fails, settled_iff fails]
    · rw [performAll_ok _ (perform_of_not_fails fails), failsAlone_of_not_fails _ fails]
      exact ih _

def batchCalls (lines : List Str) : List Call := lines.map (fun line => .line (asBytes line)) ++ [.flush]

/-- The states of a forwarder that is given batches, whatever became of them. -/
inductive Reached (out : Outside) : IlpForwarder → Prop
  | new : Reached out {}
  | batch {f : IlpForwarder} (before : Reached out f) (lines : List Str) :
      Reached out (forwardBatch out lines f).2

theorem Reached.accounted {out : Outside} {f : IlpForwarder} (reached : Reached out f) : Accounted f := by
  induction reached with
  | new => exact accounted_new
  | batch _ lines ih =>
    rw [forwardBatch_eq]
    exact performAll_accounted ih _

/-- When a connection or a batch ends, everything accepted for the shards that work has been sent
exactly if every call that failed found the buffers of the other shards empty. -/
theorem delivered_iff_failsAlone (out : Outside) :
    (∀ ending chunks, Delivered (handleConnection out ending chunks).2 ↔
      FailsAlone out (connectionCalls ending chunks []) {}) ∧
    ∀ f, Reached out f → ∀ lines, Delivered (forwardBatch out lines f).2 ↔
      FailsAlone out (batchCalls lines) f := by
  constructor
  · intro ending chunks
    rw [handleConnection, (connectionLoop_eq out ending chunks [] {}).1,
      delivered_iff_settled (performAll_accounted accounted_new _)]
    rcases connectionCalls_last ending chunks [] with nothing | ⟨calls, last⟩
    · rw [nothing]
      refine iff_of_true (fun _ _ found => ?_) trivial
      cases found
    · rw [last]
      exact performAll_settled_iff out calls {}
  · intro f reached lines
    rw [forwardBatch_eq, delivered_iff_settled (performAll_accounted reached.accounted _)]
    exact performAll_settled_iff out _ f

/-! The first connect succeeds and the second is refused, while there is a line for each of two shards. -/

def refusing : Outside := { steady with connect := fun n => n == 0 }

/-- Both lines in one read. -/
def readForBoth : Bytes := asBytes "t,symbol=B x=1\nt,symbol=A x=2\n".toList

/-- Both lines in one batch. -/
def batchForBoth : List Str := ["t,symbol=B x=1".toList, "t,symbol=A x=2".toList]

theorem refusing_unsent : (handleConnection refusing .closed [readForBoth]).2.sentTo 1 ≠
    (handleConnection refusing .closed [readForBoth]).2.acceptedFor 1 := by decide +kernel

/-- The connection and the batch lose the first line, and the batch after that one sends it with its own. -/
theorem delivered_iff_failsAlone_refusing :
    ¬ FailsAlone refusing (connectionCalls .closed [readForBoth] []) {} ∧
      ¬ FailsAlone refusing (batchCalls batchForBoth) {} ∧
      Delivered (forwardBatch refusing ["t,symbol=B x=3".toList] (forwardBatch refusing batchForBoth {}).2).2 := by
  refine ⟨?_, ?_, ?_⟩
  · rw [← (delivered_iff_failsAlone refusing).1]
    intro delivered
    exact refusing_unsent (delivered 1 (by decide +kernel))
  · rw [← (delivered_iff_failsAlone refusing).2 {} .new]
    intro delivered
    exact absurd (delivered 1 (by decide +kernel)) (by decide +kernel)
  · refine ((delivered_iff_failsAlone refusing).2 _ (.batch .new batchForBoth) _).mpr ⟨?_, fun _ => ⟨?_, fun _ => trivial⟩⟩
    all_goals intro fails
    all_goals exact absurd ((fails_iff _ _ _).mp fails) (by decide +kernel)

/-- The connect for the second line fails, and the first line, accepted before, is never sent. -/
theorem refused_connect_loses_line : ¬ Delivered (handleConnection refusing .closed [readForBoth]).2 :=
  fun delivered => refusing_unsent (delivered 1 (by decide +kernel))

end QuestRouter.Protocol
