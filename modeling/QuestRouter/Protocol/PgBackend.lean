import QuestRouter.Text.Replace

/-!
# Parameters of backend queries
-/

namespace QuestRouter.Protocol
open Text

def nullText : Str := "null".toList

def placeholder (k : Nat) : Str := '$' :: decimal k

def paramLiteral (value : Str) : Str :=
  if eqIgnoreAsciiCase value nullText then "NULL".toList
  else '\'' :: replace value ['\''] ['\'', '\''] ++ ['\'']

/-- `$1`, `$2`, ... are replaced by literals, from the last parameter to the first. -/
def inlineSqlParams (sql : Str) (params : List Str) : Str :=
  params.zipIdx.reverse.foldl (fun out (value, idx) => replace out (placeholder (idx + 1)) (paramLiteral value)) sql

end QuestRouter.Protocol
