import QuestRouter.Config

/-!
# Table registry

Routing metadata of the configured tables, found by name ignoring ASCII case.
-/

namespace QuestRouter.Routing
open Text

structure TableRegistry where
  tables : HashMap Str TableRoutingConfig

namespace TableRegistry

def fromConfig (tables : List TableRoutingConfig) : TableRegistry :=
  ⟨.collect (tables.map fun t => (toAsciiLowercase t.name, t))⟩

def get (registry : TableRegistry) (name : Str) : Option TableRoutingConfig :=
  registry.tables.get (toAsciiLowercase name)

/-- Shard-key column of a table: its override, otherwise the default. -/
def shardKeyFor (registry : TableRegistry) (name default : Str) : Str :=
  ((registry.get name).bind (·.shardKey)).getD default

end TableRegistry
end QuestRouter.Routing
