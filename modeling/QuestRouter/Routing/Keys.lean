import QuestRouter.Text.Utf8

/-!
# Keys of line-protocol lines

The measurement and the shard key, found by scanning the bytes of a line for its first comma,
space and equals sign.
-/

namespace QuestRouter.Routing
open Text

def newline : UInt8 := asciiByte '\n'
def comma : UInt8 := asciiByte ','
def space : UInt8 := asciiByte ' '
def equals : UInt8 := asciiByte '='

def firstLine (body : Bytes) : Bytes := body.take ((memchr newline body).getD body.length)

/-- The bytes before the first comma or space. -/
def measurementFromIlpBytes (body : Bytes) : Option Str :=
  if body.isEmpty then none
  else
    let line := firstLine body
    let nameEnd := min ((memchr comma line).getD line.length) ((memchr space line).getD line.length)
    if nameEnd = 0 then none else fromUtf8 (line.take nameEnd)

def tagNameEq (name : Bytes) (tagName : Str) : Bool :=
  match fromUtf8 name with
  | some n => eqIgnoreAsciiCase n tagName
  | none => false

def tagValue (tagName : Str) (tag : Bytes) : Option Str :=
  match memchr equals tag with
  | some eq =>
    if tagNameEq (tag.take eq) tagName then
      let value := tag.drop (eq + 1)
      some ((fromUtf8 value).getD (fromUtf8Lossy value))
    else none
  | none => none

def tagSection (tags : Bytes) : Bytes :=
  match memchr space tags with
  | some s => tags.take s
  | none => tags

def shardKeyFromIlpCow (body : Bytes) (tagName : Str) : Str :=
  if body.isEmpty then tagName
  else
    let line := firstLine body
    match memchr comma line with
    | some tagsStart =>
      (((tagSection (line.drop (tagsStart + 1))).splitOn comma).findSome? (tagValue tagName)).getD tagName
    | none => tagName

def shardKeyFromIlp (body : Bytes) (tagName : Str) : Str := shardKeyFromIlpCow body tagName

end QuestRouter.Routing
