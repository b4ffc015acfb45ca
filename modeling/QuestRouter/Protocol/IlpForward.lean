import QuestRouter.Metadata.Snapshot
import QuestRouter.Routing.Keys

/-!
# ILP forwarder

Lines are appended to the write buffer of their shard. A buffer is written out when it grows past
a threshold and on `flush`. Everything the outside decides is in `Outside`: the snapshot in force at
each line, whether a connect or a write succeeds, and the order in which a hash map is iterated.
-/

namespace QuestRouter.Protocol
open Text Routing Metadata

def shardBufFlushBytes : Nat := 256 * 1024

inductive ForwardError where
  | routing (e : RoutingError)
  | connect
  | write
  deriving DecidableEq, Repr

/-- An upstream connection. Beside the buffer it records what has been handed to the stream, how
many writes were made, and whether one failed. -/
structure ShardUpstream where
  buf : Bytes := []
  sent : Bytes := []
  writes : Nat := 0
  failed : Bool := false
  deriving DecidableEq, Repr

/-- The forwarder. Beside the upstreams it counts the lines routed, the connects and the flushes, and
logs the shard and the bytes of each accepted line. -/
structure IlpForwarder where
  upstreams : HashMap Nat ShardUpstream := ∅
  routed : Nat := 0
  connects : Nat := 0
  flushes : Nat := 0
  accepted : List (Nat × Bytes) := []

structure Outside where
  defaultShardKey : Str
  /-- The snapshot in force when the n-th line is routed. -/
  snapshot : Nat → ClusterSnapshot
  /-- Whether the n-th connect succeeds. -/
  connect : Nat → Bool
  /-- How many bytes the n-th write to a shard gets out before it fails, `none` if it succeeds. -/
  write : Nat → Nat → Option Nat
  /-- The order in which the n-th flush visits the upstreams. -/
  order : Nat → List Nat → List Nat
  order_perm : ∀ n ids, (order n ids).Perm ids

namespace IlpForwarder

def set (f : IlpForwarder) (id : Nat) (u : ShardUpstream) : IlpForwarder :=
  { f with upstreams := f.upstreams.insert id u }

/-- `write_all`: the whole chunk, or a part of it and an error. -/
def writeAll (out : Outside) (id : Nat) (u : ShardUpstream) (chunk : Bytes) :
    Except ForwardError Unit × ShardUpstream :=
  match out.write id u.writes with
  | none => (.ok (), { u with sent := u.sent ++ chunk, writes := u.writes + 1 })
  | some n =>
    (.error .write, { u with sent := u.sent ++ chunk.take n, writes := u.writes + 1, failed := true })

/-- `buf.split()` and the write of what it returns. -/
def writeBuf (out : Outside) (id : Nat) (u : ShardUpstream) : Except ForwardError Unit × ShardUpstream :=
  writeAll out id { u with buf := [] } u.buf

def shardOfLine (defaultShardKey : Str) (snapshot : ClusterSnapshot) (line : Bytes) :
    Except RoutingError ShardConfig :=
  let measurement := (measurementFromIlpBytes line).getD []
  let tagName := snapshot.tableRegistry.shardKeyFor measurement defaultShardKey
  snapshot.shardForKey (shardKeyFromIlpCow line tagName) .ilp

/-- The upstream of a shard, connected if it is not there yet. -/
def upstreamOf (out : Outside) (f : IlpForwarder) (id : Nat) :
    Except ForwardError ShardUpstream × IlpForwarder :=
  match f.upstreams.get id with
  | some u => (.ok u, f)
  | none =>
    let counted := { f with connects := f.connects + 1 }
    if out.connect f.connects then (.ok {}, counted.set id {}) else (.error .connect, counted)

def terminated (line : Bytes) : Bytes := if line.getLast? = some newline then line else line ++ [newline]

def isBlank (line : Bytes) : Bool := (line.takeWhile (· != newline)).isEmpty

def accept (f : IlpForwarder) (id : Nat) (line : Bytes) : IlpForwarder :=
  { f with accepted := f.accepted ++ [(id, terminated line)] }

def fill (u : ShardUpstream) (line : Bytes) : ShardUpstream := { u with buf := u.buf ++ terminated line }

/-- The line is buffered, and a large buffer is written out early. -/
def bufferLine (out : Outside) (f : IlpForwarder) (id : Nat) (u : ShardUpstream) (line : Bytes) :
    Except ForwardError Unit × IlpForwarder :=
  if (fill u line).buf.length ≥ shardBufFlushBytes then
    match writeBuf out id (fill u line) with
    | (.ok (), u) => (.ok (), (f.set id u).accept id line)
    | (.error e, u) => (.error e, f.set id u)
  else (.ok (), (f.set id (fill u line)).accept id line)

def routeAndBuffer (out : Outside) (f : IlpForwarder) (line : Bytes) :
    Except ForwardError Unit × IlpForwarder :=
  if isBlank line then (.ok (), f)
  else
    let snapshot := out.snapshot f.routed
    let f := { f with routed := f.routed + 1 }
    match shardOfLine out.defaultShardKey snapshot line with
    | .error e => (.error (.routing e), f)
    | .ok shard =>
      match upstreamOf out f shard.id with
      | (.error e, f) => (.error e, f)
      | (.ok u, f) => bufferLine out f shard.id u line

/-- The loop of `flush`. Flushing a TCP stream is a no-op, so only the writes are here. -/
def flushEach (out : Outside) : List Nat → IlpForwarder → Except ForwardError Unit × IlpForwarder
  | [], f => (.ok (), f)
  | id :: ids, f =>
    match f.upstreams.get id with
    | none => flushEach out ids f
    | some u =>
      if u.buf.isEmpty then flushEach out ids f
      else
        match writeBuf out id u with
        | (.ok (), u) => flushEach out ids (f.set id u)
        | (.error e, u) => (.error e, f.set id u)

def flush (out : Outside) (f : IlpForwarder) : Except ForwardError Unit × IlpForwarder :=
  flushEach out (out.order f.flushes f.upstreams.keys) { f with flushes := f.flushes + 1 }

/-- `forward_line_str` for each line in turn, then `flush`. -/
def forwardBatch (out : Outside) : List Str → IlpForwarder → Except ForwardError Unit × IlpForwarder
  | [], f => flush out f
  | line :: lines, f =>
    match routeAndBuffer out f (asBytes line) with
    | (.error e, f) => (.error e, f)
    | (.ok (), f) => forwardBatch out lines f

end IlpForwarder
end QuestRouter.Protocol
