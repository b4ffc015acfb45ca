import QuestRouter.Protocol.IlpHeld

/-!
# Streams after a failed write

An upstream stays in the map when a write to its stream has failed, and a line connects only where the map
has no upstream. So a broken stream is used again exactly if another line is routed to its shard.
-/

namespace QuestRouter.Protocol
open Text Routing Metadata

namespace IlpForwarder

/-- What is asked of a forwarder from outside. -/
inductive Request where
  | forwardLine (line : Bytes)
  | forwardBatch (lines : List Str)
  | flush

def handle (out : Outside) (f : IlpForwarder) : Request → Except ForwardError Unit × IlpForwarder
  | .forwardLine line => routeAndBuffer out f line
  | .forwardBatch lines => forwardBatch out lines f
  | .flush => flush out f

def Request.calls : Request → List Call
  | .forwardLine line => [.line line]
  | .forwardBatch lines => batchCalls lines
  | .flush => [.flush]

/-- The calls up to the first that fails, each with the forwarder it is made on. -/
def made (out : Outside) : List Call → IlpForwarder → List (IlpForwarder × Call)
  | [], _ => []
  | call :: calls, f =>
    (f, call) ::
      match perform out f call with
      | (.ok (), g) => made out calls g
      | (.error _, _) => []

/-- The calls of a run of requests; a request that fails does not end the run. -/
def history (out : Outside) : List Request → IlpForwarder → List (IlpForwarder × Call)
  | [], _ => []
  | request :: requests, f => made out request.calls f ++ history out requests (handle out f request).2

/-- A write to the shard's stream has returned an error. -/
def Failed (f : IlpForwarder) (id : Nat) : Prop := (upstreamIn f id).failed = true

instance (f : IlpForwarder) (id : Nat) : Decidable (Failed f id) := inferInstanceAs (Decidable (_ = true))

/-- The shard that a call has a line for. -/
def lineFor (out : Outside) (f : IlpForwarder) : Call → Option Nat
  | .line bytes => if isBlank bytes then none else targetOf out f bytes
  | .flush => none

/-- No stream that has failed is written to, and a line for its shard connects anew. -/
def LeavesFailed (out : Outside) (f : IlpForwarder) (call : Call) : Prop :=
  ∀ id, Failed f id → (upstreamIn (perform out f call).2 id).writes = (upstreamIn f id).writes ∧
    (lineFor out f call = some id → (perform out f call).2.connects = f.connects + 1)

def NeverReuses (out : Outside) (requests : List Request) : Prop :=
  ∀ entry ∈ history out requests {}, LeavesFailed out entry.1 entry.2

/-- No line of the run is for a shard whose stream has failed before. -/
def NoLineAfterFailure (out : Outside) (requests : List Request) : Prop :=
  ∀ entry ∈ history out requests {}, ∀ id, lineFor out entry.1 entry.2 = some id → ¬ Failed entry.1 id

variable {out : Outside} {f g : IlpForwarder}

theorem handle_eq (out : Outside) (f : IlpForwarder) (request : Request) :
    handle out f request = performAll out request.calls f := by
  have alone : ∀ call, perform out f call = performAll out [call] f := by
    intro call
    rw [performAll]
    rcases perform out f call with ⟨_ | _, g⟩ <;> rfl
  cases request with
  | forwardLine line => exact alone (.line line)
  | forwardBatch lines => exact forwardBatch_eq out lines f
  | flush => exact alone .flush

/-! ### One call -/

/-- The buffer of a failed stream is empty, since the write that failed took all of it. -/
def FailedEmpty (f : IlpForwarder) : Prop := ∀ id, Failed f id → f.bufOf id = []

/-- What one call does to failed streams, if it has no line for them. -/
structure Apart (f g : IlpForwarder) : Prop where
  kept : ∀ id, Failed f id → upstreamIn g id = upstreamIn f id
  empty : FailedEmpty g

theorem Apart.congr (empty : FailedEmpty f) (same : g.upstreams = f.upstreams) : Apart f g := by
  have upstream : ∀ id, upstreamIn g id = upstreamIn f id := by
    intro id
    rw [upstreamIn, same, upstreamIn]
  refine ⟨fun id _ => upstream id, fun id failed => ?_⟩
  rw [Failed, upstream] at failed
  rw [bufOf, upstream]
  exact empty id failed

theorem Apart.set (apart : Apart f g) {id : Nat} {u : ShardUpstream} (works : ¬ Failed f id)
    (cleared : u.failed = true → u.buf = []) : Apart f (g.set id u) where
  kept k failed := by
    have different : k ≠ id := by
      rintro rfl
      exact works failed
    rw [upstreamIn_set, if_neg different, apart.kept k failed]
  empty k failed := by
    unfold Failed at failed
    rw [bufOf, upstreamIn_set] at *
    split
    · rename_i same
      rw [if_pos same] at failed
      exact cleared failed
    · rename_i different
      rw [if_neg different] at failed
      exact apart.empty k failed

theorem Apart.trans {h : IlpForwarder} (first : Apart f g) (second : Apart g h) : Apart f h where
  kept id failed := by
    have still : Failed g id := by rwa [Failed, first.kept id failed]
    rw [second.kept id still, first.kept id failed]
  empty := second.empty

theorem writeBuf_cleared (out : Outside) (id : Nat) (u : ShardUpstream) : (writeBuf out id u).2.buf = [] := by
  unfold writeBuf writeAll
  split <;> rfl

theorem writeBuf_set (out : Outside) (id : Nat) (u : ShardUpstream) (empty : FailedEmpty f) (works : ¬ Failed f id) :
    Apart f (f.set id (writeBuf out id u).2) :=
  (Apart.congr empty rfl).set works fun _ => writeBuf_cleared out id u

theorem flushEach_apart (empty : FailedEmpty f) (ids : List Nat) : Apart f (flushEach out ids f).2 := by
  induction ids generalizing f with
  | nil => exact .congr empty rfl
  | cons id ids ih =>
    rw [flushEach]
    split
    · exact ih empty
    rename_i u found
    split
    · exact ih empty
    rename_i filled
    have works : ¬ Failed f id := by
      intro failed
      have cleared := empty id failed
      simp only [bufOf, upstreamIn, found, Option.getD_some] at cleared
      exact filled (List.isEmpty_iff.mpr cleared)
    have written := writeBuf_set out id u empty works
    rcases outcome : writeBuf out id u with ⟨_ | _, v⟩
    · rwa [outcome] at written
    · rw [outcome] at written
      exact written.trans (ih written.empty)

theorem bufferLine_apart (empty : FailedEmpty f) {id : Nat} {u : ShardUpstream} (line : Bytes)
    (works : ¬ Failed f id) (unfailed : u.failed = false) : Apart f (bufferLine out f id u line).2 := by
  unfold bufferLine
  split
  · have written := writeBuf_set out id (fill u line) empty works
    rcases outcome : writeBuf out id (fill u line) with ⟨_ | _, v⟩
    · rwa [outcome] at written
    · rw [outcome] at written
      exact written.trans (.congr written.empty rfl)
  · have filled : Apart f (f.set id (fill u line)) :=
      (Apart.congr empty rfl).set works fun failed => by
        rw [show (fill u line).failed = u.failed from rfl, unfailed] at failed
        cases failed
    exact filled.trans (.congr filled.empty rfl)

theorem failed_present {id : Nat} (failed : Failed f id) : ∃ u, f.upstreams.get id = some u := by
  unfold Failed upstreamIn at failed
  cases found : f.upstreams.get id with
  | none =>
    rw [found] at failed
    cases failed
  | some u => exact ⟨u, rfl⟩

theorem upstreamOf_apart (out : Outside) (empty : FailedEmpty f) (id : Nat) : Apart f (upstreamOf out f id).2 := by
  unfold upstreamOf
  split
  · exact .congr empty rfl
  · rename_i missing
    have counted : Apart f { f with connects := f.connects + 1 } := .congr empty rfl
    split
    · refine counted.set (fun failed => ?_) (fun failed => ?_)
      · obtain ⟨u, found⟩ := failed_present failed
        rw [missing] at found
        cases found
      · cases failed
    · exact counted

theorem routeAndBuffer_apart (empty : FailedEmpty f) (bytes : Bytes)
    (noneFailed : ∀ id, lineFor out f (.line bytes) = some id → ¬ Failed f id) :
    Apart f (routeAndBuffer out f bytes).2 := by
  unfold routeAndBuffer
  split
  · exact .congr empty rfl
  rename_i text
  dsimp only
  have counted : Apart f { f with routed := f.routed + 1 } := .congr empty rfl
  split
  · exact counted
  rename_i shard target
  have target : nextShard out f bytes = .ok shard := target
  have works : ¬ Failed f shard.id := noneFailed shard.id (by simp [lineFor, text, targetOf, target])
  have connected := counted.trans (upstreamOf_apart out counted.empty shard.id)
  rcases step : upstreamOf out { f with routed := f.routed + 1 } shard.id with ⟨e | u, g⟩
  · rwa [step] at connected
  rw [step] at connected
  obtain ⟨rfl, here, _⟩ := upstreamOf_ok step
  have unfailed : (upstreamIn f shard.id).failed = false := by simpa [Failed] using works
  have still : ¬ Failed g shard.id := by
    rw [Failed, upstreamIn, here, Option.getD_some]
    exact works
  exact connected.trans (bufferLine_apart connected.empty bytes still unfailed)

theorem perform_apart (empty : FailedEmpty f) {call : Call}
    (noneFailed : ∀ id, lineFor out f call = some id → ¬ Failed f id) : Apart f (perform out f call).2 := by
  cases call with
  | line bytes => exact routeAndBuffer_apart empty bytes noneFailed
  | flush =>
    have counted : Apart f { f with flushes := f.flushes + 1 } := .congr empty rfl
    exact counted.trans (flushEach_apart counted.empty _)

/-- A line for a shard that has an upstream does not connect, whatever became of its stream. -/
theorem line_connects {call : Call} {id : Nat} (goes : lineFor out f call = some id)
    (present : ∃ u, f.upstreams.get id = some u) : (perform out f call).2.connects = f.connects := by
  obtain ⟨u, found⟩ := present
  cases call with
  | flush => cases goes
  | line bytes =>
    simp only [lineFor] at goes
    split at goes
    · cases goes
    rename_i text
    unfold targetOf at goes
    split at goes
    · rename_i shard target
      obtain rfl := Option.some.inj goes
      rw [perform, routeAndBuffer, if_neg text]
      dsimp only
      rw [show shardOfLine out.defaultShardKey (out.snapshot f.routed) bytes = .ok shard from target]
      dsimp only
      rw [upstreamOf, show ({ f with routed := f.routed + 1 } : IlpForwarder).upstreams.get shard.id = some u from found]
      dsimp only
      unfold bufferLine
      split
      · split <;> rfl
      · rfl
    · cases goes

/-! ### Runs -/

theorem leavesFailed_of {call : Call} (empty : FailedEmpty f)
    (noneFailed : ∀ id, lineFor out f call = some id → ¬ Failed f id) : LeavesFailed out f call := by
  intro id failed
  refine ⟨?_, fun goes => (noneFailed id goes failed).elim⟩
  rw [(perform_apart empty noneFailed).kept id failed]

theorem not_failed_of_leaves {call : Call} (leaves : LeavesFailed out f call) {id : Nat}
    (goes : lineFor out f call = some id) : ¬ Failed f id := by
  intro failed
  have connects := (leaves id failed).2 goes
  rw [line_connects goes (failed_present failed)] at connects
  omega

theorem made_apart {calls : List Call} (empty : FailedEmpty f)
    (noneFailed : ∀ entry ∈ made out calls f, ∀ id, lineFor out entry.1 entry.2 = some id → ¬ Failed entry.1 id) :
    FailedEmpty (performAll out calls f).2 ∧ ∀ entry ∈ made out calls f, FailedEmpty entry.1 := by
  induction calls generalizing f with
  | nil => exact ⟨empty, by simp [made]⟩
  | cons call calls ih =>
    have first := perform_apart empty (noneFailed (f, call) List.mem_cons_self)
    rw [made] at *
    rcases step : perform out f call with ⟨e | _, g⟩
    · rw [performAll_error calls step]
      rw [step] at first
      refine ⟨first.empty, fun entry member => ?_⟩
      rw [List.mem_singleton.mp member]
      exact empty
    · rw [performAll_ok calls step]
      rw [step] at first noneFailed
      obtain ⟨last, each⟩ := ih first.empty fun entry member => noneFailed entry (List.mem_cons_of_mem _ member)
      refine ⟨last, fun entry member => ?_⟩
      rcases List.mem_cons.mp member with rfl | later
      · exact empty
      · exact each entry later

theorem history_empty {requests : List Request} (empty : FailedEmpty f)
    (noneFailed : ∀ entry ∈ history out requests f, ∀ id, lineFor out entry.1 entry.2 = some id → ¬ Failed entry.1 id) :
    ∀ entry ∈ history out requests f, FailedEmpty entry.1 := by
  induction requests generalizing f with
  | nil => simp [history]
  | cons request requests ih =>
    rw [history] at *
    obtain ⟨last, each⟩ := made_apart empty fun entry member => noneFailed entry (List.mem_append_left _ member)
    rw [← handle_eq] at last
    intro entry member
    rcases List.mem_append.mp member with now | later
    · exact each entry now
    · exact ih last (fun entry member => noneFailed entry (List.mem_append_right _ member)) entry later

theorem failedEmpty_new : FailedEmpty {} := fun _ _ => rfl

/-- A run never uses a broken stream again exactly if it has no line for a shard whose stream has failed. -/
theorem neverReuses_iff (out : Outside) (requests : List Request) :
    NeverReuses out requests ↔ NoLineAfterFailure out requests := by
  constructor
  · intro never entry member id goes
    exact not_failed_of_leaves (never entry member) goes
  · intro noneFailed entry member
    exact leavesFailed_of (history_empty failedEmpty_new noneFailed entry member) (noneFailed entry member)

/-- The first write to each shard fails. -/
def breaking : Outside := { steady with write := fun _ n => if n = 0 then some 0 else none }

def oneTrade : List Str := ["t,symbol=A x=1".toList]

/-- After the shard's stream has failed, the next batch is written to the same stream. -/
theorem broken_stream_written_again : ¬ NeverReuses breaking [.forwardBatch oneTrade, .forwardBatch oneTrade] := by
  intro never
  have second : ((forwardBatch breaking oneTrade {}).2, Call.line (asBytes "t,symbol=A x=1".toList)) ∈
      history breaking [.forwardBatch oneTrade, .forwardBatch oneTrade] {} := by
    rw [history, history]
    exact List.mem_append_right _ (List.mem_append_left _ List.mem_cons_self)
  have connects := (never _ second 0 (by decide +kernel)).2 (by decide +kernel)
  exact absurd connects (by decide +kernel)

end IlpForwarder
end QuestRouter.Protocol
