import QuestRouter.Text.Str

/-!
# Route plans
-/

namespace QuestRouter.Routing
open Text

inductive AggKind where
  | count
  | sum
  | min
  | max
  | avg
  deriving DecidableEq, Repr

/-- Execution plan produced from SQL analysis. -/
inductive RoutePlan where
  | singleShard (table : Str) (shardKey : Option Str) (shardKeyParam : Option Nat)
  | fullScan (table : Str)
  | aggregateScan (table : Str) (aggKind : AggKind)
  | join (sql : Str)
  | groupBy (table : Str) (groupCols : List Str) (aggKinds : List AggKind)
  deriving DecidableEq, Repr

end QuestRouter.Routing
