import QuestRouter.Cluster.Writes
import QuestRouter.Stream.Replay

/-!
# What the stream shows of the writes

A line is published once it is in the buffer of its shard, and before the buffer is written out early. Connections
forward their lines while clients of the stream come and go; what a topic shows are then the lines that were accepted,
and for each connection at most its last one beside them, when the early write has failed.
-/

namespace QuestRouter.Cluster
open Text Metadata Protocol IlpForwarder Data QuestRouter.Stream

/-! ### Routing and publishing -/

/-- `route_and_buffer` with the line that it publishes. -/
def routeAndPublish (out : Outside) (f : IlpForwarder) (line : Bytes) :
    (Except ForwardError Unit × IlpForwarder) × Option Bytes :=
  if isBlank line then ((.ok (), f), none)
  else
    let snapshot := out.snapshot f.routed
    let f := { f with routed := f.routed + 1 }
    match shardOfLine out.defaultShardKey snapshot line with
    | .error e => ((.error (.routing e), f), none)
    | .ok shard =>
      match upstreamOf out f shard.id with
      | (.error e, f) => ((.error e, f), none)
      | (.ok u, f) => (bufferLine out f shard.id u line, some line)

theorem routeAndPublish_fst (out : Outside) (f : IlpForwarder) (line : Bytes) :
    (routeAndPublish out f line).1 = routeAndBuffer out f line := by
  unfold routeAndPublish routeAndBuffer
  split
  · rfl
  · dsimp only
    cases shardOfLine out.defaultShardKey (out.snapshot f.routed) line with
    | error e => rfl
    | ok shard =>
      dsimp only
      rcases upstreamOf out { f with routed := f.routed + 1 } shard.id with ⟨_ | _, _⟩ <;> rfl

/-- A line that is published has been accepted, unless the call fails; a call that publishes nothing accepts nothing,
and fails unless the line is blank. -/
inductive Publishing (f : IlpForwarder) (line : Bytes) : (Except ForwardError Unit × IlpForwarder) × Option Bytes → Prop
  | blank (blank : isBlank line = true) : Publishing f line ((.ok (), f), none)
  | refused {g : IlpForwarder} (e : ForwardError) (accepted : g.accepted = f.accepted) :
      Publishing f line ((.error e, g), none)
  | accepted {g : IlpForwarder} (text : isBlank line = false) (id : Nat)
      (accepted : g.accepted = f.accepted ++ [(id, terminated line)]) : Publishing f line ((.ok (), g), some line)
  | lost {g : IlpForwarder} (text : isBlank line = false) (e : ForwardError) (accepted : g.accepted = f.accepted) :
      Publishing f line ((.error e, g), some line)

theorem bufferLine_publishing {out : Outside} {f g : IlpForwarder} {line : Bytes} (text : isBlank line = false)
    (same : g.accepted = f.accepted) (id : Nat) (u : ShardUpstream) :
    Publishing f line (bufferLine out g id u line, some line) := by
  unfold bufferLine
  split
  · rcases writeBuf out id (fill u line) with ⟨e | _, v⟩
    · exact .lost text e same
    · exact .accepted text id (by rw [← same]; rfl)
  · exact .accepted text id (by rw [← same]; rfl)

theorem routeAndPublish_publishing (out : Outside) (f : IlpForwarder) (line : Bytes) :
    Publishing f line (routeAndPublish out f line) := by
  unfold routeAndPublish
  split
  · rename_i blank
    exact .blank blank
  · rename_i text
    rw [Bool.not_eq_true] at text
    dsimp only
    split
    · exact .refused _ rfl
    · rename_i shard _
      rcases connected : upstreamOf out { f with routed := f.routed + 1 } shard.id with ⟨e | u, g⟩
      · have same : g.accepted = f.accepted := by
          unfold upstreamOf at connected
          split at connected
          · cases connected
          · split at connected
            · cases connected
            · cases connected
              rfl
        exact .refused e same
      · have same : g.accepted = f.accepted := (upstreamOf_ok connected).2.2.1
        exact bufferLine_publishing text same shard.id u

/-! ### Connections and clients of the stream -/

/-- The task of a connection; a call that fails ends it. -/
structure IlpTask where
  out : Outside
  forwarder : IlpForwarder := {}
  failed : Bool := false

/-- A line that a connection has published. -/
structure Shown where
  connection : Nat
  line : Bytes
  accepted : Bool

/-- The connections and the stream, with the lines that were published. -/
structure Live (F : Type) where
  tasks : List IlpTask := []
  stream : StreamServer.Recorded F := .start
  shown : List Shown := []

inductive LiveEvent where
  | accept (out : Outside)
  | line (i : Nat) (line : Bytes)
  | flush (i : Nat)
  | stream (e : SocketEvent)

def isOk (r : Except ForwardError Unit) : Bool :=
  match r with
  | .ok () => true
  | .error _ => false

def IlpTask.after (task : IlpTask) (called : Except ForwardError Unit × IlpForwarder) : IlpTask :=
  { task with forwarder := called.2, failed := !isOk called.1 }

/-- The lines that this connection has published. -/
def shownBy (i : Nat) (shown : List Shown) : List Shown := shown.filter fun s => s.connection = i

/-- The rows of a topic among published lines. -/
def shownRows {F : Type} (setup : StreamSetup F) (topic : Str) (shown : List Shown) : List (IlpRow F) :=
  shown.filterMap fun s => (setup.topicRow s.line).bind fun p => if p.1 = topic then some p.2 else none

namespace Live

variable {F : Type} (setup : StreamSetup F)

def publish (s : Live F) (i : Nat) (task : IlpTask) (called : Except ForwardError Unit × IlpForwarder) :
    Option Bytes → Option (Live F)
  | none => some { s with tasks := s.tasks.set i (task.after called) }
  | some line =>
    (StreamServer.Recorded.step setup s.stream (.publish line)).map fun stream =>
      { tasks := s.tasks.set i (task.after called), stream, shown := s.shown ++ [⟨i, line, isOk called.1⟩] }

def step (s : Live F) : LiveEvent → Option (Live F)
  | .accept out => some { s with tasks := s.tasks ++ [{ out }] }
  | .line i line =>
    match s.tasks[i]? with
    | some task =>
      if task.failed then none
      else s.publish setup i task (routeAndPublish task.out task.forwarder line).1
        (routeAndPublish task.out task.forwarder line).2
    | none => none
  | .flush i =>
    match s.tasks[i]? with
    | some task =>
      if task.failed then none
      else some { s with tasks := s.tasks.set i (task.after (flush task.out task.forwarder)) }
    | none => none
  | .stream (.publish _) => none
  | .stream e => (StreamServer.Recorded.step setup s.stream e).map fun stream => { s with stream }

variable {setup} {s t : Live F}

/-! ### What a step does -/

/-- A task that has not failed goes on, and shows a line or none. -/
inductive Moves (setup : StreamSetup F) (s : Live F) : LiveEvent → Live F → Prop
  | accept (out : Outside) : Moves setup s (.accept out) { s with tasks := s.tasks ++ [{ out }] }
  | silent {i : Nat} {line : Bytes} {task : IlpTask} {called : Except ForwardError Unit × IlpForwarder}
      (found : s.tasks[i]? = some task) (works : task.failed = false)
      (publishing : Publishing task.forwarder line (called, none)) :
      Moves setup s (.line i line) { s with tasks := s.tasks.set i (task.after called) }
  | shows {i : Nat} {line : Bytes} {task : IlpTask} {called : Except ForwardError Unit × IlpForwarder}
      {stream : StreamServer.Recorded F} (found : s.tasks[i]? = some task) (works : task.failed = false)
      (publishing : Publishing task.forwarder line (called, some line))
      (stepped : StreamServer.Recorded.step setup s.stream (.publish line) = some stream) :
      Moves setup s (.line i line)
        { tasks := s.tasks.set i (task.after called), stream, shown := s.shown ++ [⟨i, line, isOk called.1⟩] }
  | flush {i : Nat} {task : IlpTask} (found : s.tasks[i]? = some task) (works : task.failed = false) :
      Moves setup s (.flush i) { s with tasks := s.tasks.set i (task.after (flush task.out task.forwarder)) }
  | stream {e : SocketEvent} {stream : StreamServer.Recorded F} (other : ∀ line, e ≠ .publish line)
      (stepped : StreamServer.Recorded.step setup s.stream e = some stream) :
      Moves setup s (.stream e) { s with stream }

theorem moves_of_step {e : LiveEvent} (h : s.step setup e = some t) : Moves setup s e t := by
  cases e with
  | accept out => cases h; exact .accept out
  | line i line =>
    dsimp only [step] at h
    split at h
    · rename_i task found
      split at h
      · cases h
      · rename_i works
        rw [Bool.not_eq_true] at works
        have publishing := routeAndPublish_publishing task.out task.forwarder line
        generalize routeAndPublish task.out task.forwarder line = answer at publishing h
        rcases answer with ⟨called, _ | shown⟩
        · cases h
          exact .silent found works publishing
        · have same : shown = line := by cases publishing <;> rfl
          subst same
          unfold publish at h
          dsimp only at h
          obtain ⟨stream, stepped, rfl⟩ := Option.map_eq_some_iff.mp h
          exact .shows found works publishing stepped
    · cases h
  | flush i =>
    dsimp only [step] at h
    split at h
    · rename_i task found
      split at h
      · cases h
      · rename_i works
        rw [Bool.not_eq_true] at works
        cases h
        exact .flush found works
    · cases h
  | stream e =>
    by_cases published : ∃ line, e = .publish line
    · obtain ⟨line, rfl⟩ := published
      cases h
    · have other : ∀ line, e ≠ .publish line := fun line same => published ⟨line, same⟩
      have stepped : ((StreamServer.Recorded.step setup s.stream e).map fun stream => { s with stream }) = some t := by
        cases e with
        | publish line => exact absurd rfl (other line)
        | _ => exact h
      obtain ⟨stream, happens, rfl⟩ := Option.map_eq_some_iff.mp stepped
      exact .stream other happens

/-! ### Every run -/

/-- The accepted lines of a connection are those that it has shown as accepted, and only its last one may not be. -/
structure Journaled (s : Live F) : Prop where
  accepted : ∀ (i : Nat) (task : IlpTask), s.tasks[i]? = some task → task.forwarder.accepted.map Prod.snd =
    ((shownBy i s.shown).filter Shown.accepted).map fun shown => terminated shown.line
  whole : ∀ (i : Nat) (task : IlpTask), s.tasks[i]? = some task → task.failed = false →
    ∀ shown ∈ shownBy i s.shown, shown.accepted = true
  last : ∀ i, ∀ shown ∈ (shownBy i s.shown).dropLast, shown.accepted = true
  nobody : ∀ i, s.tasks.length ≤ i → shownBy i s.shown = []

/-- What the stream keeps comes from the lines that were shown. -/
structure Streams (setup : StreamSetup F) (s : Live F) : Prop where
  rows : ∀ topic, StreamServer.Recorded.rows topic s.stream.history = shownRows setup topic s.shown
  remembers : StreamServer.Recorded.Remembers setup s.stream

theorem shownBy_append (i : Nat) (shown more : List Shown) :
    shownBy i (shown ++ more) = shownBy i shown ++ shownBy i more := List.filter_append ..

theorem shownBy_one (i : Nat) (shown : Shown) : shownBy i [shown] = if shown.connection = i then [shown] else [] := by
  unfold shownBy
  by_cases same : shown.connection = i <;> simp [same]

theorem journaled_start : Journaled ({} : Live F) := ⟨nofun, nofun, nofun, fun _ _ => rfl⟩

theorem after_failed {task : IlpTask} {called : Except ForwardError Unit × IlpForwarder}
    (works : (task.after called).failed = false) : isOk called.1 = true := by
  simpa [IlpTask.after] using works

/-- A task that shows nothing has accepted what it had. -/
theorem Journaled.set {i : Nat} {task task' : IlpTask} (journaled : Journaled s) (found : s.tasks[i]? = some task)
    (works : task.failed = false) (same : task'.forwarder.accepted = task.forwarder.accepted)
    (stream : StreamServer.Recorded F) : Journaled { s with tasks := s.tasks.set i task', stream } := by
  refine ⟨fun k other there => ?_, fun k other there _ => ?_, journaled.last, fun k outside => ?_⟩
  · rw [Machine.getElem?_replaced found] at there
    split at there
    · rename_i here
      obtain rfl := Option.some.inj there
      rw [same, here]
      exact journaled.accepted i task found
    · exact journaled.accepted k other there
  · rw [Machine.getElem?_replaced found] at there
    split at there
    · rename_i here
      rw [here]
      exact journaled.whole i task found works
    · exact journaled.whole k other there ‹_›
  · apply journaled.nobody k
    simpa using outside

theorem task_accepted {out : Outside} {k : Nat} {task : IlpTask}
    (there : (s.tasks ++ [({ out := out } : IlpTask)])[k]? = some task) :
    s.tasks[k]? = some task ∨ s.tasks.length ≤ k ∧ task = { out := out } := by
  rw [List.getElem?_append] at there
  split at there
  · exact .inl there
  · rename_i outside
    exact .inr ⟨Nat.le_of_not_lt outside, List.mem_singleton.mp (List.mem_of_getElem? there)⟩

theorem Journaled.accepts (journaled : Journaled s) (out : Outside) :
    Journaled { s with tasks := s.tasks ++ [{ out := out }] } := by
  refine ⟨fun k task there => ?_, fun k task there works => ?_, journaled.last, fun k outside => ?_⟩
  · rcases task_accepted there with before | ⟨new, rfl⟩
    · exact journaled.accepted k task before
    · rw [journaled.nobody k new]
      rfl
  · rcases task_accepted there with before | ⟨new, rfl⟩
    · exact journaled.whole k task before works
    · rw [journaled.nobody k new]
      exact nofun
  · apply journaled.nobody k
    change (s.tasks ++ [({ out := out } : IlpTask)]).length ≤ k at outside
    rw [List.length_append] at outside
    omega

/-- A task that shows a line has not failed before; the line is accepted unless the task fails with it. -/
theorem Journaled.shows {i : Nat} {task : IlpTask} {line : Bytes} {called : Except ForwardError Unit × IlpForwarder}
    (journaled : Journaled s) (found : s.tasks[i]? = some task) (works : task.failed = false)
    (publishing : Publishing task.forwarder line (called, some line)) (stream : StreamServer.Recorded F) :
    Journaled { tasks := s.tasks.set i (task.after called), shown := s.shown ++ [⟨i, line, isOk called.1⟩], stream } := by
  have shown : ∀ k, shownBy k (s.shown ++ [⟨i, line, isOk called.1⟩]) =
      shownBy k s.shown ++ if i = k then [⟨i, line, isOk called.1⟩] else [] := by
    intro k
    rw [shownBy_append, shownBy_one]
  refine ⟨fun k other there => ?_, fun k other there works' => ?_, fun k => ?_, fun k outside => ?_⟩
  · rw [Machine.getElem?_replaced found] at there
    rw [shown, List.filter_append, List.map_append]
    split at there
    · rename_i here
      obtain rfl := Option.some.inj there
      rw [here, if_pos rfl, ← journaled.accepted i task found]
      cases publishing with
      | accepted text id accepted => simp [IlpTask.after, accepted, isOk]
      | lost text e accepted => simp [IlpTask.after, accepted, isOk]
    · rename_i elsewhere
      rw [if_neg (Ne.symm elsewhere), ← journaled.accepted k other there]
      simp
  · rw [Machine.getElem?_replaced found] at there
    rw [shown]
    intro line' member
    split at there
    · rename_i here
      obtain rfl := Option.some.inj there
      rw [here, if_pos rfl] at member
      rcases List.mem_append.mp member with before | now
      · exact journaled.whole i task found works line' before
      · obtain rfl := List.mem_singleton.mp now
        exact after_failed works'
    · rename_i elsewhere
      rw [if_neg (Ne.symm elsewhere), List.append_nil] at member
      exact journaled.whole k other there works' line' member
  · rw [shown]
    split
    · rename_i here
      subst here
      rw [List.dropLast_concat]
      exact journaled.whole i task found works
    · rw [List.append_nil]
      exact journaled.last k
  · have outside : s.tasks.length ≤ k := by simpa using outside
    have inside := (List.getElem?_eq_some_iff.mp found).1
    rw [shown, journaled.nobody k outside, if_neg (by omega)]
    rfl

theorem Journaled.step {e : LiveEvent} (journaled : Journaled s) (h : s.step setup e = some t) : Journaled t := by
  cases moves_of_step h with
  | accept out => exact journaled.accepts out
  | @silent i line task called found works publishing =>
    apply journaled.set found works
    cases publishing with
    | blank blank => rfl
    | refused e accepted => exact accepted
  | shows found works publishing stepped => exact journaled.shows found works publishing _
  | flush found works =>
    apply journaled.set found works
    exact (flush_frame rfl).1
  | stream other stepped => exact ⟨journaled.accepted, journaled.whole, journaled.last, journaled.nobody⟩

theorem shownRows_append (topic : Str) (shown more : List Shown) :
    shownRows setup topic (shown ++ more) = shownRows setup topic shown ++ shownRows setup topic more :=
  List.filterMap_append

theorem shownRows_one (topic : Str) (shown : Shown) :
    shownRows setup topic [shown] = StreamServer.publishedRows setup topic [.publish shown.line] := rfl

theorem streams_start : Streams setup ({} : Live F) := ⟨fun _ => rfl, StreamServer.Recorded.remembers_start⟩

theorem Streams.step {e : LiveEvent} (streams : Streams setup s) (h : s.step setup e = some t) : Streams setup t := by
  cases moves_of_step h with
  | accept out => exact ⟨streams.rows, streams.remembers⟩
  | silent found works publishing => exact ⟨streams.rows, streams.remembers⟩
  | shows found works publishing stepped =>
    refine ⟨fun topic => ?_, StreamServer.Recorded.remembers_step streams.remembers stepped⟩
    rw [StreamServer.Recorded.rows_step stepped, streams.rows, shownRows_append, shownRows_one]
  | flush found works => exact ⟨streams.rows, streams.remembers⟩
  | @stream e stream other stepped =>
    refine ⟨fun topic => ?_, StreamServer.Recorded.remembers_step streams.remembers stepped⟩
    have nothing : StreamServer.publishedRows setup topic [e] = [] := by
      cases e with
      | publish line => exact absurd rfl (other line)
      | _ => rfl
    rw [StreamServer.Recorded.rows_step stepped, nothing, List.append_nil]
    exact streams.rows topic

/-- Replay gives rows of lines that were shown, in their order. -/
theorem Streams.replay (streams : Streams setup s) (topic : Str) (lastN : Nat) :
    (s.stream.server.hub.replay topic lastN).Sublist (shownRows setup topic s.shown) := by
  rw [← streams.rows, BroadcastHub.replay_eq, (streams.remembers topic).1, rtake_rtake]
  have kept : (StreamServer.Recorded.keptRows topic s.stream.history).Sublist
      (StreamServer.Recorded.rows topic s.stream.history) := List.filter_sublist.map _
  exact (List.drop_sublist _ _).trans kept

/-- The lines that a connection has been given, without the blank ones. -/
def givenTo (i : Nat) (events : List LiveEvent) : List Bytes :=
  events.filterMap fun
    | .line k line => if k = i ∧ isBlank line = false then some line else none
    | _ => none

/-- A connection has shown the lines it was given, or failed on the last one. -/
structure ShowsGiven (events : List LiveEvent) (s : Live F) (i : Nat) : Prop where
  prefixed : ∃ lost, givenTo i events = (shownBy i s.shown).map Shown.line ++ lost ∧ lost.length ≤ 1
  whole : ∀ task : IlpTask, s.tasks[i]? = some task → task.failed = false →
    givenTo i events = (shownBy i s.shown).map Shown.line
  nobody : s.tasks.length ≤ i → givenTo i events = []

theorem givenTo_append (i : Nat) (events more : List LiveEvent) :
    givenTo i (events ++ more) = givenTo i events ++ givenTo i more := List.filterMap_append

theorem givenTo_line (i k : Nat) (line : Bytes) :
    givenTo i [.line k line] = if k = i ∧ isBlank line = false then [line] else [] := by
  unfold givenTo
  by_cases given : k = i ∧ isBlank line = false <;> simp [given]

theorem showsGiven_start (i : Nat) : ShowsGiven [] ({} : Live F) i :=
  ⟨⟨[], rfl, Nat.zero_le 1⟩, fun _ _ _ => rfl, fun _ => rfl⟩

/-- Nothing is given and nothing shown. -/
theorem ShowsGiven.quiet {events : List LiveEvent} {i : Nat} {e : LiveEvent} (before : ShowsGiven events s i)
    (given : givenTo i [e] = []) (shown : shownBy i t.shown = shownBy i s.shown)
    (works : ∀ task : IlpTask, t.tasks[i]? = some task → task.failed = false →
      (∃ task' : IlpTask, s.tasks[i]? = some task' ∧ task'.failed = false) ∨ s.tasks.length ≤ i)
    (room : s.tasks.length ≤ t.tasks.length) (unshown : s.tasks.length ≤ i → shownBy i s.shown = []) :
    ShowsGiven (events ++ [e]) t i := by
  have same : givenTo i (events ++ [e]) = givenTo i events := by rw [givenTo_append, given, List.append_nil]
  refine ⟨?_, fun task there working => ?_, fun outside => ?_⟩
  · rw [same, shown]
    exact before.prefixed
  · rw [same, shown]
    rcases works task there working with ⟨task', found, worked⟩ | outside
    · exact before.whole task' found worked
    · rw [before.nobody outside, unshown outside]
      rfl
  · rw [same]
    exact before.nobody (by omega)

theorem works_before {i k : Nat} {task task' : IlpTask} (found : s.tasks[k]? = some task) (works : task.failed = false) :
    ∀ other : IlpTask, (s.tasks.set k task')[i]? = some other → other.failed = false →
      (∃ before : IlpTask, s.tasks[i]? = some before ∧ before.failed = false) ∨ s.tasks.length ≤ i := by
  intro other there working
  rw [Machine.getElem?_replaced found] at there
  left
  split at there
  · rename_i here
    rw [here]
    exact ⟨task, found, works⟩
  · exact ⟨other, there, working⟩

theorem ShowsGiven.step {events : List LiveEvent} {i : Nat} {e : LiveEvent} (journaled : Journaled s)
    (before : ShowsGiven events s i) (h : s.step setup e = some t) : ShowsGiven (events ++ [e]) t i := by
  cases moves_of_step h with
  | accept out =>
    refine before.quiet rfl rfl (fun task there works => ?_) ?_ (journaled.nobody i)
    · rcases task_accepted there with old | ⟨new, _⟩
      · exact .inl ⟨task, old, works⟩
      · exact .inr new
    · simp
  | @silent k line task called found works publishing =>
    have inside := (List.getElem?_eq_some_iff.mp found).1
    by_cases given : k = i ∧ isBlank line = false
    · obtain ⟨rfl, text⟩ := given
      have same : givenTo k (events ++ [.line k line]) = (shownBy k s.shown).map Shown.line ++ [line] := by
        rw [givenTo_append, givenTo_line, if_pos ⟨rfl, text⟩, before.whole task found works]
      refine ⟨⟨[line], same, Nat.le_refl 1⟩, fun task' there works' => ?_, fun outside => ?_⟩
      · rw [Machine.getElem?_replaced found, if_pos rfl] at there
        obtain rfl := Option.some.inj there
        cases publishing with
        | blank blank => simp [blank] at text
        | refused e accepted => simp [IlpTask.after, isOk] at works'
      · have outside : s.tasks.length ≤ k := by simpa using outside
        omega
    · have nothing : givenTo i [.line k line] = [] := by rw [givenTo_line, if_neg given]
      exact before.quiet nothing rfl (works_before found works) (by simp) (journaled.nobody i)
  | @shows k line task called stream found works publishing stepped =>
    have inside := (List.getElem?_eq_some_iff.mp found).1
    have text : isBlank line = false := by
      cases publishing with
      | accepted text => exact text
      | lost text => exact text
    by_cases here : k = i
    · subst here
      have same : givenTo k (events ++ [.line k line]) =
          (shownBy k (s.shown ++ [⟨k, line, isOk called.1⟩])).map Shown.line := by
        rw [givenTo_append, givenTo_line, if_pos ⟨rfl, text⟩, before.whole task found works, shownBy_append,
          shownBy_one, if_pos rfl, List.map_append]
        rfl
      refine ⟨⟨[], by rw [same, List.append_nil], Nat.zero_le 1⟩, fun _ _ _ => same, fun outside => ?_⟩
      have outside : s.tasks.length ≤ k := by simpa using outside
      omega
    · have nothing : givenTo i [.line k line] = [] := by
        rw [givenTo_line, if_neg]
        exact fun given => here given.1
      have shown : shownBy i (s.shown ++ [⟨k, line, isOk called.1⟩]) = shownBy i s.shown := by
        rw [shownBy_append, shownBy_one, if_neg here, List.append_nil]
      exact before.quiet nothing shown (works_before found works) (by simp) (journaled.nobody i)
  | @flush k task found works =>
    exact before.quiet rfl rfl (works_before found works) (by simp) (journaled.nobody i)
  | stream other stepped =>
    exact before.quiet rfl rfl (fun task there works => .inl ⟨task, there, works⟩) (Nat.le_refl _) (journaled.nobody i)

theorem journaled_run {events : List LiveEvent} (reached : Machine.run (step setup) {} events = some s) :
    Journaled s :=
  Machine.invariant_run (fun _ _ _ journaled h => Journaled.step journaled h) journaled_start reached

theorem streams_run {events : List LiveEvent} (reached : Machine.run (step setup) {} events = some s) :
    Streams setup s :=
  Machine.invariant_run (fun _ _ _ streams h => Streams.step streams h) streams_start reached

theorem showsGiven_run {events : List LiveEvent} (reached : Machine.run (step setup) {} events = some s) (i : Nat) :
    ShowsGiven events s i := by
  induction events using List.reverseRecOn generalizing s with
  | nil =>
    cases reached
    exact showsGiven_start i
  | append_singleton events e ih =>
    obtain ⟨u, before, last⟩ := Machine.run_concat.mp reached
    exact (ih before).step (journaled_run before) last

/-- The stream shows each connection's lines in their order, up to the one that the connection fails on, and these are
the lines that it accepted, but for the one whose early write fails; replay gives rows of shown lines. -/
theorem shown_accepted {events : List LiveEvent} (reached : Machine.run (step setup) {} events = some s) :
    (∀ (i : Nat) (task : IlpTask), s.tasks[i]? = some task →
      task.forwarder.accepted.map Prod.snd =
        ((shownBy i s.shown).filter Shown.accepted).map fun shown => terminated shown.line) ∧
    (∀ i, ∀ shown ∈ (shownBy i s.shown).dropLast, shown.accepted = true) ∧
    (∀ i, ∃ lost, givenTo i events = (shownBy i s.shown).map Shown.line ++ lost ∧ lost.length ≤ 1) ∧
    (∀ (i : Nat) (task : IlpTask), s.tasks[i]? = some task → task.failed = false →
      task.forwarder.accepted.map Prod.snd = (givenTo i events).map terminated) ∧
    ∀ topic lastN, (s.stream.server.hub.replay topic lastN).Sublist (shownRows setup topic s.shown) := by
  have journaled := journaled_run reached
  refine ⟨journaled.accepted, journaled.last, fun i => (showsGiven_run reached i).prefixed, fun i task found works => ?_,
    (streams_run reached).replay⟩
  have all : (shownBy i s.shown).filter Shown.accepted = shownBy i s.shown :=
    List.filter_eq_self.mpr (journaled.whole i task found works)
  rw [journaled.accepted i task found, all, (showsGiven_run reached i).whole task found works, List.map_map]
  rfl

/-- The second connection reaches no shard. -/
def tradesLive : List LiveEvent :=
  [.accept (willing "symbol".toList tradesCluster),
    .accept { willing "symbol".toList tradesCluster with connect := fun _ => false }, .stream .connect,
    .stream (.subscribe 0 "A".toList), .line 0 trade, .line 1 trade, .flush 0]

theorem shown_accepted_trades :
    ∃ s, Machine.run (step tradesSetup) {} tradesLive = some s ∧
      s.stream.server.hub.replay "A".toList 5 = [tradeRow] ∧
      (s.stream.server.hub.replay "A".toList 5).Sublist (shownRows tradesSetup "A".toList s.shown) ∧
      givenTo 1 tradesLive = [trade] ∧
      ∃ lost, givenTo 1 tradesLive = (shownBy 1 s.shown).map Shown.line ++ lost ∧ lost.length ≤ 1 := by
  obtain ⟨s, reached, replay, given⟩ : ∃ s, Machine.run (step tradesSetup) {} tradesLive = some s ∧
      s.stream.server.hub.replay "A".toList 5 = [tradeRow] ∧ givenTo 1 tradesLive = [trade] :=
    ⟨_, rfl, by decide +kernel, by decide +kernel⟩
  obtain ⟨_, _, shown, _, replays⟩ := shown_accepted reached
  exact ⟨s, reached, replay, replays "A".toList 5, given, shown 1⟩

end Live
end QuestRouter.Cluster
