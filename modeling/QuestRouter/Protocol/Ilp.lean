import QuestRouter.Protocol.IlpDelivery
import QuestRouter.Text.Frames

/-!
# ILP connections

A connection reads chunks, forwards the complete lines and flushes after every read. It is a run of
forwarder calls that the chunks determine. If no call fails, every shard gets the lines routed to
it, in order and once, however the stream was cut into chunks.
-/

namespace QuestRouter.Protocol
open Text Routing Metadata IlpForwarder

/-- How the reads of a connection end: the client closes it, or a read fails. -/
inductive ReadEnd where
  | closed
  | failed
  deriving DecidableEq, Repr

inductive ConnectionError where
  | read
  | forward (e : ForwardError)
  deriving DecidableEq, Repr

/-- The inner loop: every complete line in the buffer is forwarded, the rest stays. -/
def forwardLines (out : Outside) (buf : Bytes) (f : IlpForwarder) :
    Except ForwardError Bytes × IlpForwarder :=
  match _ : memchr newline buf with
  | none => (.ok buf, f)
  | some n =>
    match routeAndBuffer out f (buf.take (n + 1)) with
    | (.error e, f) => (.error e, f)
    | (.ok (), f) => forwardLines out (buf.drop (n + 1)) f
termination_by buf.length
decreasing_by
  rename_i found
  obtain ⟨inside, _⟩ := List.findIdx?_eq_some_iff_getElem.mp found
  simp only [List.length_drop]
  omega

/-- The loop over the reads. A read of no bytes is the end of the stream. -/
def connectionLoop (out : Outside) (ending : ReadEnd) :
    List Bytes → Bytes → IlpForwarder → Except ConnectionError Unit × IlpForwarder
  | [], _, f =>
    match ending with
    | .failed => (.error .read, f)
    | .closed =>
      match flush out f with
      | (.error e, f) => (.error (.forward e), f)
      | (.ok (), f) => (.ok (), f)
  | chunk :: chunks, buf, f =>
    if chunk.isEmpty then
      match flush out f with
      | (.error e, f) => (.error (.forward e), f)
      | (.ok (), f) => (.ok (), f)
    else
      match forwardLines out (buf ++ chunk) f with
      | (.error e, f) => (.error (.forward e), f)
      | (.ok buf, f) =>
        match flush out f with
        | (.error e, f) => (.error (.forward e), f)
        | (.ok (), f) => connectionLoop out ending chunks buf f

def handleConnection (out : Outside) (ending : ReadEnd) (chunks : List Bytes) :
    Except ConnectionError Unit × IlpForwarder := connectionLoop out ending chunks [] {}

/-! ### A connection as a run of calls -/

def lineCalls (lines : List Bytes) : List Call := lines.map .line

theorem frames_at {buf : Bytes} {n : Nat} (found : memchr newline buf = some n) :
    frames newline [] buf =
      (buf.take (n + 1) :: (frames newline [] (buf.drop (n + 1))).1,
        (frames newline [] (buf.drop (n + 1))).2) := by
  obtain ⟨absent, upTo, _⟩ := memchr_some found
  have split : buf = buf.take n ++ newline :: buf.drop (n + 1) := by
    rw [← List.singleton_append, ← List.append_assoc, ← upTo, List.take_append_drop]
  have first := frames_first absent (buf.drop (n + 1))
  rwa [← split, ← upTo] at first

theorem forwardLines_eq (out : Outside) (buf : Bytes) (f : IlpForwarder) :
    forwardLines out buf f =
      match performAll out (lineCalls (frames newline [] buf).1) f with
      | (.error e, g) => (.error e, g)
      | (.ok (), g) => (.ok (frames newline [] buf).2, g) := by
  fun_induction forwardLines out buf f with
  | case1 buf f missing =>
    rw [frames_of_not_mem (memchr_eq_none.mp missing)]
    rfl
  | case2 buf f n found e g step =>
    have first : perform out f (.line (buf.take (n + 1))) = (.error e, g) := step
    rw [frames_at found, lineCalls, List.map_cons, performAll_error _ first]
  | case3 buf f n found g step ih =>
    have first : perform out f (.line (buf.take (n + 1))) = (.ok (), g) := step
    rw [frames_at found, lineCalls, List.map_cons, performAll_ok _ first]
    exact ih

def connectionCalls (ending : ReadEnd) : List Bytes → Bytes → List Call
  | [], _ => if ending = .closed then [.flush] else []
  | chunk :: chunks, buf =>
    if chunk.isEmpty then [.flush]
    else
      lineCalls (frames newline [] (buf ++ chunk)).1 ++
        .flush :: connectionCalls ending chunks (frames newline [] (buf ++ chunk)).2

theorem connectionLoop_eq (out : Outside) (ending : ReadEnd) (chunks : List Bytes) (buf : Bytes)
    (f : IlpForwarder) :
    (connectionLoop out ending chunks buf f).2 =
        (performAll out (connectionCalls ending chunks buf) f).2 ∧
      ∀ e, (connectionLoop out ending chunks buf f).1 = .error (.forward e) ↔
        (performAll out (connectionCalls ending chunks buf) f).1 = .error e := by
  induction chunks generalizing buf f with
  | nil =>
    cases ending with
    | failed => simp [connectionLoop, connectionCalls, performAll]
    | closed =>
      rcases step : flush out f with ⟨_ | _, g⟩ <;>
        simp [connectionLoop, connectionCalls, performAll, perform, step]
  | cons chunk chunks ih =>
    rw [connectionLoop, connectionCalls]
    split
    · rcases step : flush out f with ⟨_ | _, g⟩ <;> simp [performAll, perform, step]
    · rw [forwardLines_eq, performAll_append]
      rcases performAll out (lineCalls (frames newline [] (buf ++ chunk)).1) f with ⟨_ | _, g⟩
      · simp
      · simp only [performAll, perform]
        rcases flush out g with ⟨_ | _, g⟩
        · simp
        · exact ih _ g

/-! ### Delivery -/

def received (chunks : List Bytes) : Bytes := (chunks.takeWhile fun chunk => !chunk.isEmpty).flatten

/-- The complete lines of a stream that have a byte before their newline. -/
def completeLines (stream : Bytes) : List Bytes := (frames newline [] stream).1.filter (!isBlank ·)

theorem textLines_append (first second : List Call) :
    textLines (first ++ second) = textLines first ++ textLines second := List.filterMap_append

theorem textLines_lineCalls (lines : List Bytes) : textLines (lineCalls lines) = lines.filter (!isBlank ·) := by
  induction lines with
  | nil => rfl
  | cons line lines ih =>
    simp only [lineCalls, List.map_cons, textLines, List.filterMap_cons, List.filter_cons] at ih ⊢
    cases isBlank line <;> simp [ih]

/-- The lines forwarded are those of the stream, however it was cut. -/
theorem textLines_connectionCalls (ending : ReadEnd) (chunks : List Bytes) {buf : Bytes}
    (unfinished : newline ∉ buf) :
    textLines (connectionCalls ending chunks buf) = completeLines (buf ++ received chunks) := by
  induction chunks generalizing buf with
  | nil =>
    have nothing : completeLines (buf ++ received []) = [] := by
      simp [completeLines, received, frames_of_not_mem unfinished]
    rw [nothing, connectionCalls]
    split <;> rfl
  | cons chunk chunks ih =>
    rw [connectionCalls]
    split
    · rename_i empty
      simp [completeLines, received, empty, frames_of_not_mem unfinished, textLines]
    · rename_i nonempty
      have tail := (frames_delimited (show newline ∉ [] by simp) (buf ++ chunk)).2
      have whole : received (chunk :: chunks) = chunk ++ received chunks := by
        simp [received, nonempty]
      rw [textLines_append, textLines_lineCalls, ← List.singleton_append, textLines_append, ih tail, whole,
        ← List.append_assoc buf]
      simp only [completeLines]
      rw [frames_append newline [] (buf ++ chunk), frames_resume, List.filter_append]
      rfl

theorem completeLines_terminated {stream line : Bytes} (h : line ∈ completeLines stream) :
    terminated line = line := by
  obtain ⟨body, rfl, _⟩ := (frames_delimited (show newline ∉ [] by simp) stream).1 line
    (List.mem_filter.mp h).1
  simp [terminated]

theorem connectionCalls_last (ending : ReadEnd) (chunks : List Bytes) (buf : Bytes) :
    connectionCalls ending chunks buf = [] ∨
      ∃ calls, connectionCalls ending chunks buf = calls ++ [.flush] := by
  induction chunks generalizing buf with
  | nil =>
    rw [connectionCalls]
    split
    · exact .inr ⟨[], rfl⟩
    · exact .inl rfl
  | cons chunk chunks ih =>
    rw [connectionCalls]
    split
    · exact .inr ⟨[], rfl⟩
    · right
      rcases ih (frames newline [] (buf ++ chunk)).2 with last | ⟨calls, last⟩
      · exact ⟨_, by rw [last]⟩
      · exact ⟨lineCalls (frames newline [] (buf ++ chunk)).1 ++ .flush :: calls, by simp [last]⟩

theorem sentTo_performAll {out : Outside} {calls : List Call} {f : IlpForwarder} (account : Accounted f)
    (none : NoneFailed f) (ok : (performAll out (calls ++ [.flush]) f).1 = .ok ()) (id : Nat) :
    (performAll out (calls ++ [.flush]) f).2.sentTo id =
      f.acceptedFor id ++ (routedTo out id f.routed (textLines calls)).flatMap terminated := by
  obtain ⟨unfailed, accepted⟩ := performAll_delivers none ok id
  rw [textLines_append, show textLines [Call.flush] = [] from rfl, List.append_nil] at accepted
  rw [← accepted]
  refine sentTo_settled (performAll_accounted account _) ?_ id ?_
  · exact performAll_settled ok
  · unfold upstreamIn
    cases found : (performAll out (calls ++ [.flush]) f).2.upstreams.get id with
    | none => rfl
    | some u => exact unfailed id u found

/-- If no route, connect or write fails, the bytes written to a shard are the complete lines of the
stream that are routed to it, in order. -/
theorem handleConnection_delivers (out : Outside) (ending : ReadEnd) (chunks : List Bytes)
    (succeeds : ∀ e, (handleConnection out ending chunks).1 ≠ .error (.forward e)) (id : Nat) :
    (handleConnection out ending chunks).2.sentTo id =
      (routedTo out id 0 (completeLines (received chunks))).flatten := by
  obtain ⟨final, errors⟩ := connectionLoop_eq out ending chunks [] {}
  have ok : (performAll out (connectionCalls ending chunks []) {}).1 = .ok () := by
    rcases outcome : (performAll out (connectionCalls ending chunks []) {}).1 with e | _
    · exact (succeeds e ((errors e).mpr outcome)).elim
    · rfl
  have lines : textLines (connectionCalls ending chunks []) = completeLines (received chunks) :=
    textLines_connectionCalls ending chunks (by simp)
  have same : (routedTo out id 0 (completeLines (received chunks))).flatMap terminated =
      (routedTo out id 0 (completeLines (received chunks))).flatten := by
    rw [List.flatMap, List.map_congr_left (g := fun line => line), List.map_id']
    exact fun line member => completeLines_terminated (mem_routedTo member)
  rw [handleConnection, final, ← same, ← lines]
  rcases connectionCalls_last ending chunks [] with nothing | ⟨calls, last⟩
  · rw [nothing]
    rfl
  · rw [last] at ok ⊢
    rw [sentTo_performAll accounted_new nofun ok, textLines_append]
    simp [acceptedFor, textLines]

/-- Every connect and write succeeds, and lines with `B` as their symbol go to the second shard. -/
def steady : Outside where
  defaultShardKey := "symbol".toList
  snapshot _ := twoShards "B".toList []
  connect _ := true
  write _ _ := none
  order _ ids := ids
  order_perm _ ids := .refl ids

/-- Three lines in two reads that cut the second line. -/
def cutReads : List Bytes :=
  [asBytes "t,symbol=A x=1\nt,sym".toList, asBytes "bol=B x=2\nt,symbol=A x=3\n".toList]

theorem cutReads_delivered :
    (handleConnection steady .closed cutReads).2.sentTo 0 =
      (routedTo steady 0 0 (completeLines (received cutReads))).flatten := by
  have closed : (handleConnection steady .closed cutReads).1 = .ok () := by decide +kernel
  exact handleConnection_delivers steady .closed cutReads (by simp [closed]) 0

example : (routedTo steady 0 0 (completeLines (received cutReads))).flatten =
    asBytes "t,symbol=A x=1\nt,symbol=A x=3\n".toList := by decide +kernel

end QuestRouter.Protocol
