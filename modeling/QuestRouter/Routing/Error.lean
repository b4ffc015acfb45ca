import QuestRouter.Text.Str

/-!
# Routing errors

`SqlRouteError` comes from the analysis of a statement, `RoutingError` from the choice of a shard.
The messages are part of the model: the PG hook decides by text which errors it answers itself.
-/

namespace QuestRouter.Routing
open Text

inductive SqlRouteError where
  | parse (message : Str)
  | unsupported (message : Str)
  deriving DecidableEq, Repr

inductive RoutingError where
  | parse (message : Str)
  | unsupported (message : Str)
  | shardNotFound (key : Str)
  | shardUnhealthy (shardId : Nat)
  | insufficientHealthyShards (required available : Nat)
  deriving DecidableEq, Repr

/-- `From<SqlRouteError> for RoutingError`. -/
def RoutingError.from : SqlRouteError → RoutingError
  | .parse message => .parse message
  | .unsupported message => .unsupported message

end QuestRouter.Routing
