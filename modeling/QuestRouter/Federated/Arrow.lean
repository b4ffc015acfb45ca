import QuestRouter.Federated.Merge

/-!
# Shard queries

One statement on one shard, by a client of the pool. A client that fails with a connection error is thrown
away, and the statement is asked once more of another client.
-/

namespace QuestRouter.Federated.Arrow
open Text

def connectionErrors : List Str :=
  ["broken pipe".toList, "connection reset".toList, "connection refused".toList, "connection closed".toList,
    "unexpected eof".toList, "unexpected remote message".toList]

def isConnectionError (text : Str) : Bool := connectionErrors.any fun e => contains (toAsciiLowercase text) e

/-- An answer of a client, with its error as the caller reports it. -/
def queryShardClient (shardId : Nat) (answer : Except Str (List ClientResponse)) :
    Except FederatedError (List ClientResponse) := answer.mapError (.shardQuery shardId)

inductive AfterAnswer where
  | done (result : Except FederatedError (List ClientResponse))
  | reconnect

/-- What `query_shard` makes of the answer of its first client. -/
def afterFirst (shardId : Nat) : Except Str (List ClientResponse) → AfterAnswer
  | .ok responses => .done (.ok responses)
  | .error message =>
    let text := shardQueryText shardId message
    if isMissingTableError text then .done (.ok [])
    else if isConnectionError text then .reconnect
    else .done (.error (.shardQuery shardId message))

/-- What the task of `query_all_shards` makes of the answer of its client. -/
def fanOutAnswer (shardId : Nat) : Except Str (List ClientResponse) → Except FederatedError (List ClientResponse)
  | .ok responses => .ok responses
  | .error message =>
    if isMissingTableError (shardQueryText shardId message) then .ok []
    else .error (.shardQuery shardId message)

/-- The result of a client that the pool may not give. -/
def retried (shardId : Nat) : Except ShardFailure (List ClientResponse) →
    Except FederatedError (List ClientResponse)
  | .ok responses => .ok responses
  | .error (.acquire message) => .error (.shardQuery shardId message)
  | .error (.query message) => .error (.shardQuery shardId message)

def queryShard (shardId : Nat) (first second : Except ShardFailure (List ClientResponse)) :
    Except FederatedError (List ClientResponse) :=
  match first with
  | .ok responses => .ok responses
  | .error (.acquire message) => .error (.shardQuery shardId message)
  | .error (.query message) =>
    match afterFirst shardId (.error message) with
    | .done result => result
    | .reconnect => retried shardId second

/-- The first response that is a query result. -/
def extractQueryRows (responses : List ClientResponse) : Option (List FieldInfo × List DataRow) :=
  responses.findSome? fun
    | .query fields rows => some (fields, rows)
    | _ => none

theorem queryShard_error {shardId : Nat} {first second : Except ShardFailure (List ClientResponse)}
    {e : FederatedError} (h : queryShard shardId first second = .error e) :
    ∃ message, e = .shardQuery shardId message := by
  have again : ∀ {e}, retried shardId second = .error e → ∃ message, e = .shardQuery shardId message := by
    intro e failed
    unfold retried at failed
    split at failed <;> cases failed <;> exact ⟨_, rfl⟩
  unfold queryShard at h
  split at h
  · cases h
  · cases h; exact ⟨_, rfl⟩
  · rename_i message
    unfold afterFirst at h
    dsimp only at h
    split at h
    · rename_i result decided
      split at decided
      · cases decided; cases h
      split at decided
      · cases decided
      · cases decided; cases h; exact ⟨_, rfl⟩
    · exact again h

end QuestRouter.Federated.Arrow
