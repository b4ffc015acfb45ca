import QuestRouter.Metadata.Actor
import QuestRouter.Protocol.Ilp
import QuestRouter.Protocol.Locality
import QuestRouter.Routing.SingleShard

/-!
# What a cluster was written

Clients write through many connections, each of which sees its own snapshots. A shard gets a stream of bytes
from each of them and makes rows of its complete lines. If no connection fails to forward, every complete line
that a client wrote is a line of one shard, whatever became of the health of the shards meanwhile.
-/

namespace QuestRouter.Cluster
open Text Sql Ilp Routing Metadata Protocol IlpForwarder

/-- What a database makes of a line: a row of a table, or nothing. -/
abbrev LineReader := Bytes → Option (ObjectName × Record)

/-- A connection of a client: what it meets outside, and what is read of it. -/
structure Connection where
  out : Outside
  ending : ReadEnd
  chunks : List Bytes

namespace Connection

def lines (c : Connection) : List Bytes := completeLines (received c.chunks)

def outcome (c : Connection) : Except ConnectionError Unit × IlpForwarder :=
  handleConnection c.out c.ending c.chunks

/-- No route, connect or write failed. -/
def Forwarded (c : Connection) : Prop := ∀ e, c.outcome.1 ≠ .error (.forward e)

def sentTo (c : Connection) (id : Nat) : Bytes := c.outcome.2.sentTo id

end Connection

/-- A row with the tags of a line, and other columns. -/
def tagRow (line : Line) (others : Record) : Record where
  column x :=
    match line.tag x with
    | some value => .text value
    | none => others.column x
  column_congr same := by rw [tag_congr line same, others.column_congr same]

def rowOfLine (reader : LineReader) (name : ObjectName) (line : Bytes) : Option Record :=
  (reader line).bind fun (table, row) => if table = name then some row else none

def rowsOf (reader : LineReader) (lines : List Bytes) : Tables := fun name => lines.filterMap (rowOfLine reader name)

/-- The rows of a shard, one connection after the other. -/
def shardRows (reader : LineReader) (conns : List Connection) (id : Nat) : Tables := fun name =>
  conns.flatMap fun c => rowsOf reader (completeLines (c.sentTo id)) name

/-- The rows that the clients wrote. -/
def writtenRows (reader : LineReader) (conns : List Connection) : Tables := fun name =>
  conns.flatMap fun c => rowsOf reader c.lines name

/-! ### The lines of a connection -/

/-- Each line has a shard under the snapshot in force when it is routed. -/
def Routable (out : Outside) : Nat → List Bytes → Prop
  | _, [] => True
  | n, line :: lines =>
    (∃ shard, shardOfLine out.defaultShardKey (out.snapshot n) line = .ok shard) ∧ Routable out (n + 1) lines

theorem routable_append {out : Outside} {n : Nat} {first second : List Bytes} (head : Routable out n first)
    (tail : Routable out (n + first.length) second) : Routable out n (first ++ second) := by
  induction first generalizing n with
  | nil => exact tail
  | cons line lines ih =>
    refine ⟨head.1, ih head.2 ?_⟩
    rwa [Nat.add_right_comm, Nat.add_assoc]

theorem perform_routable {out : Outside} {f g : IlpForwarder} {call : Call}
    (step : perform out f call = (.ok (), g)) : Routable out f.routed (textLines [call]) := by
  cases call with
  | flush => trivial
  | line bytes =>
    cases lineStep_of step with
    | blank blank => simp [textLines, blank, Routable]
    | buffered text target =>
      simp only [textLines, text, List.filterMap_cons, List.filterMap_nil, Bool.false_eq_true, if_false]
      exact ⟨⟨_, target⟩, trivial⟩

theorem performAll_routable {out : Outside} {calls : List Call} {f : IlpForwarder}
    (ok : (performAll out calls f).1 = .ok ()) : Routable out f.routed (textLines calls) := by
  induction calls generalizing f with
  | nil => trivial
  | cons call calls ih =>
    rcases step : perform out f call with ⟨e | _, g⟩
    · rw [performAll_error calls step] at ok
      cases ok
    · rw [performAll_ok calls step] at ok
      have counted := (perform_accepted 0 step).2
      have split : textLines (call :: calls) = textLines [call] ++ textLines calls :=
        textLines_append [call] calls
      rw [split]
      apply routable_append (perform_routable step)
      rw [← counted]
      exact ih ok

theorem completeLines_flatten {lines : List Bytes}
    (each : ∀ line ∈ lines, isBlank line = false ∧ ∃ body, line = body ++ [newline] ∧ newline ∉ body) :
    completeLines lines.flatten = lines := by
  induction lines with
  | nil => rfl
  | cons line lines ih =>
    obtain ⟨⟨text, body, rfl, absent⟩, later⟩ := List.forall_mem_cons.mp each
    have whole : ((body ++ [newline]) :: lines).flatten = body ++ newline :: lines.flatten := by simp
    have rest : (frames newline [] lines.flatten).1.filter (!isBlank ·) = lines := ih later
    rw [completeLines, whole, frames_first absent, List.filter_cons_of_pos (by simpa using text), rest]

theorem completeLines_each {stream line : Bytes} (member : line ∈ completeLines stream) :
    isBlank line = false ∧ ∃ body, line = body ++ [newline] ∧ newline ∉ body := by
  obtain ⟨framed, text⟩ := List.mem_filter.mp member
  exact ⟨by simpa using text, (frames_delimited (show newline ∉ [] by simp) stream).1 line framed⟩

namespace Connection
variable {c : Connection}

theorem Forwarded.calls (forwarded : c.Forwarded) :
    (performAll c.out (connectionCalls c.ending c.chunks []) {}).1 = .ok () := by
  obtain ⟨_, errors⟩ := connectionLoop_eq c.out c.ending c.chunks [] {}
  cases outcome : (performAll c.out (connectionCalls c.ending c.chunks []) {}).1 with
  | error e => exact (forwarded e ((errors e).mpr outcome)).elim
  | ok => rfl

theorem textLines_calls (c : Connection) : textLines (connectionCalls c.ending c.chunks []) = c.lines :=
  textLines_connectionCalls c.ending c.chunks (show newline ∉ [] by simp)

theorem Forwarded.routable (forwarded : c.Forwarded) : Routable c.out 0 c.lines := by
  rw [← textLines_calls]
  exact performAll_routable forwarded.calls

/-- A shard is sent the lines that are routed to it. -/
theorem Forwarded.lines_sentTo (forwarded : c.Forwarded) (id : Nat) :
    completeLines (c.sentTo id) = routedTo c.out id 0 c.lines := by
  have final : c.outcome.2 = (performAll c.out (connectionCalls c.ending c.chunks []) {}).2 :=
    (connectionLoop_eq c.out c.ending c.chunks [] {}).1
  have ok := forwarded.calls
  have each : ∀ line ∈ routedTo c.out id 0 c.lines, terminated line = line :=
    fun line member => completeLines_terminated (mem_routedTo member)
  have sent : c.sentTo id = (routedTo c.out id 0 c.lines).flatten := by
    have same : (routedTo c.out id 0 c.lines).flatten = (routedTo c.out id 0 c.lines).flatMap terminated := by
      rw [List.flatMap_congr each, List.flatMap_id']
    rw [Connection.sentTo, final, same, ← textLines_calls]
    rcases connectionCalls_last c.ending c.chunks [] with nothing | ⟨calls, last⟩
    · rw [nothing]
      rfl
    · rw [last] at ok ⊢
      rw [sentTo_performAll accounted_new nofun ok, textLines_append]
      simp [acceptedFor, textLines]
  rw [sent]
  exact completeLines_flatten fun line member => completeLines_each (mem_routedTo member)

end Connection

/-! ### Each line on one shard -/

/-- The list has the shards of every snapshot. -/
def Covers (ids : List Nat) (out : Outside) : Prop := ∀ n, ∀ shard ∈ (out.snapshot n).ring.shards, shard.id ∈ ids

theorem flatMap_swap_perm {α β γ : Type} (f : α → β → List γ) (xs : List α) (ys : List β) :
    (xs.flatMap fun x => ys.flatMap (f x)).Perm (ys.flatMap fun y => xs.flatMap fun x => f x y) := by
  induction xs with
  | nil => simp
  | cons x xs ih =>
    simp only [List.flatMap_cons]
    apply (ih.append_left _).trans
    exact List.flatMap_append_perm ys (f x) fun y => xs.flatMap fun x => f x y

theorem flatMap_routed_perm {out : Outside} {ids : List Nat} {n : Nat} {lines : List Bytes} (nodup : ids.Nodup)
    (covers : Covers ids out) (routable : Routable out n lines) :
    (ids.flatMap fun id => routedTo out id n lines).Perm lines := by
  induction lines generalizing n with
  | nil => simp [routedTo]
  | cons line lines ih =>
    obtain ⟨⟨shard, target⟩, rest⟩ := routable
    have goes : ∀ id, goesTo out n line id = (shard.id == id) := by
      intro id
      rw [goesTo, target]
    have listed : shard.id ∈ ids := by
      have found := (ClusterSnapshot.shardForKey_ok.mp target).2
      exact covers n shard (ShardRing.shardByKeyFiltered_spec found).1
    have first : ids.flatMap (fun id => if goesTo out n line id then [line] else []) = [line] := by
      rw [flatMap_only nodup listed]
      · rw [goes, beq_self_eq_true, if_pos rfl]
      · intro id _ other
        rw [goes, if_neg (by simpa using Ne.symm other)]
    have parts : ∀ id, routedTo out id n (line :: lines) =
        (if goesTo out n line id then [line] else []) ++ routedTo out id (n + 1) lines := by
      intro id
      rw [routedTo]
      split <;> rfl
    have split : (ids.flatMap fun id => routedTo out id n (line :: lines)) =
        ids.flatMap fun id => (if goesTo out n line id then [line] else []) ++ routedTo out id (n + 1) lines := by
      simp only [parts]
    rw [split]
    apply (List.flatMap_append_perm ids _ _).symm.trans
    rw [first]
    exact (ih rest).cons line

theorem rowsOf_perm {reader : LineReader} {first second : List Bytes} (same : first.Perm second) (name : ObjectName) :
    (rowsOf reader first name).Perm (rowsOf reader second name) := same.filterMap _

theorem rowsOf_flatMap {α : Type} (reader : LineReader) (f : α → List Bytes) (xs : List α) (name : ObjectName) :
    rowsOf reader (xs.flatMap f) name = xs.flatMap fun x => rowsOf reader (f x) name := List.filterMap_flatMap

/-- The shards together have the rows that were written. -/
theorem unionTables_shardRows {reader : LineReader} {conns : List Connection} {ids : List Nat} (nodup : ids.Nodup)
    (each : ∀ c ∈ conns, c.Forwarded ∧ Covers ids c.out) (name : ObjectName) :
    (unionTables ids (shardRows reader conns) name).Perm (writtenRows reader conns name) := by
  have shards : unionTables ids (shardRows reader conns) name =
      ids.flatMap fun id => conns.flatMap fun c => rowsOf reader (completeLines (c.sentTo id)) name := rfl
  rw [shards, writtenRows]
  apply (flatMap_swap_perm _ ids conns).trans
  apply List.Perm.flatMap_left
  intro c member
  obtain ⟨forwarded, covers⟩ := each c member
  simp only [forwarded.lines_sentTo]
  rw [← rowsOf_flatMap]
  exact rowsOf_perm (flatMap_routed_perm nodup covers forwarded.routable) name

theorem routedTo_sublist (out : Outside) (id n : Nat) (lines : List Bytes) :
    (routedTo out id n lines).Sublist lines := by
  induction lines generalizing n with
  | nil => exact .slnil
  | cons line lines ih =>
    rw [routedTo]
    split
    · exact (ih (n + 1)).cons_cons line
    · exact (ih (n + 1)).cons line

/-- Whatever becomes of the health of the shards while clients write: if no connection fails to forward, a shard
has of each connection lines in their order, the shards together have every line once, and so every row. -/
theorem shards_hold_writes (reader : LineReader) {conns : List Connection} {ids : List Nat} (nodup : ids.Nodup)
    (each : ∀ c ∈ conns, c.Forwarded ∧ Covers ids c.out) :
    (∀ c ∈ conns, ∀ id, (completeLines (c.sentTo id)).Sublist c.lines) ∧
      (∀ c ∈ conns, (ids.flatMap fun id => completeLines (c.sentTo id)).Perm c.lines) ∧
      ∀ name, (unionTables ids (shardRows reader conns) name).Perm (writtenRows reader conns name) := by
  refine ⟨?_, ?_, unionTables_shardRows nodup each⟩
  · intro c member id
    rw [(each c member).1.lines_sentTo]
    exact routedTo_sublist c.out id 0 c.lines
  · intro c member
    obtain ⟨forwarded, covers⟩ := each c member
    simp only [forwarded.lines_sentTo]
    exact flatMap_routed_perm nodup covers forwarded.routable

/-- The ILP port of the second shard goes down after the second line. -/
def failingOver : Outside :=
  { willing "symbol".toList tradesCluster with
    snapshot := fun n => if n < 2 then tradesCluster else MetadataActor.run tradesCluster [⟨1, false, true⟩] }

/-- Three lines for the second shard, of which the third is cut by a read, and one that is not complete. -/
def writesB : Connection where
  out := failingOver
  ending := .closed
  chunks := [asBytes "trades,symbol=B price=1\ntrades,symbol=B price=2\ntrades,sym".toList,
    asBytes "bol=B price=3\ntrades,symbol=B price=4".toList]

def writesBoth : Connection where
  out := willing "symbol".toList tradesCluster
  ending := .failed
  chunks := [asBytes "trades,symbol=A price=1\ntrades,symbol=B price=2\ntrades,symbol=A price=3\n".toList]

/-- `trades,symbol=` and the rest. -/
def tradeLine (symbol : String) (price : String) (oneLine : '\n' ∉ symbol.toList ∧ '\n' ∉ price.toList) : Line where
  measurement := "trades".toList
  tags := [("symbol".toList, symbol.toList)]
  fields := "price=".toList ++ price.toList
  oneLine := by simpa using ⟨oneLine.2, oneLine.1⟩

def tradeLines : List (Line × ℚ) :=
  [(tradeLine "A" "1" (by decide), 1), (tradeLine "A" "3" (by decide), 3), (tradeLine "B" "1" (by decide), 1),
    (tradeLine "B" "2" (by decide), 2), (tradeLine "B" "3" (by decide), 3)]

/-- Only these lines are read. -/
def readTrades : LineReader := fun line =>
  (tradeLines.find? fun known => known.1.bytes ++ [newline] == line).map fun known =>
    ([.identifier known.1.measurement], tagRow known.1 (plainRecord [] (.number known.2)))

theorem readTrades_known {known : Line × ℚ} (member : known ∈ tradeLines) :
    readTrades (known.1.bytes ++ [newline]) =
      some ([.identifier known.1.measurement], tagRow known.1 (plainRecord [] (.number known.2))) := by
  have distinct : (tradeLines.map fun known => known.1.bytes).Nodup := by decide +kernel
  have some : (tradeLines.find? fun other => other.1.bytes ++ [newline] == known.1.bytes ++ [newline]).isSome = true :=
    List.find?_isSome.mpr ⟨known, member, beq_self_eq_true _⟩
  obtain ⟨found, read⟩ := Option.isSome_iff_exists.mp some
  have same : found.1.bytes = known.1.bytes := by simpa using List.find?_some read
  obtain rfl := List.inj_on_of_nodup_map distinct (List.mem_of_find?_eq_some read) member same
  rw [readTrades, read, Option.map_some]

theorem failingOver_shards (n : Nat) : (failingOver.snapshot n).ring.shards = [shardA, shardB] := by
  show (if n < 2 then _ else _ : ClusterSnapshot).ring.shards = _
  split <;> rfl

theorem writesB_forwarded : writesB.Forwarded := by
  have outcome : writesB.outcome.1 = .ok () := by decide +kernel
  intro e failed
  rw [outcome] at failed
  cases failed

/-- The last read fails, which loses no complete line. -/
theorem writesBoth_forwarded : writesBoth.Forwarded := by
  have outcome : writesBoth.outcome.1 = .error .read := by decide +kernel
  intro e failed
  rw [outcome] at failed
  cases failed

theorem writes_covered {ids : List Nat} (shards : ∀ shard ∈ [shardA, shardB], shard.id ∈ ids) :
    ∀ c ∈ [writesB, writesBoth], c.Forwarded ∧ Covers ids c.out := by
  intro c member
  rcases List.mem_pair.mp member with rfl | rfl
  · refine ⟨writesB_forwarded, fun n shard inside => ?_⟩
    have inside : shard ∈ (failingOver.snapshot n).ring.shards := inside
    rw [failingOver_shards] at inside
    exact shards shard inside
  · exact ⟨writesBoth_forwarded, fun n shard inside => shards shard inside⟩

theorem shards_hold_failingOver :
    (unionTables [0, 1] (shardRows readTrades [writesB, writesBoth]) [.identifier "trades".toList]).Perm
      (writtenRows readTrades [writesB, writesBoth] [.identifier "trades".toList]) :=
  (shards_hold_writes readTrades (by decide) (writes_covered (by decide))).2.2 _

/-- The third line fails over. -/
example : completeLines (writesB.sentTo 0) = [asBytes "trades,symbol=B price=3\n".toList] := by decide +kernel

end QuestRouter.Cluster
