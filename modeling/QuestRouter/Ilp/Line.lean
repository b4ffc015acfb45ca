import QuestRouter.Text.Escape
import QuestRouter.Text.Utf8

/-!
# Lines of the line protocol

A line is a measurement, a tag set and the text of its field set and timestamp. In names and values
a backslash stands before every space, comma, equals sign and backslash.
-/

namespace QuestRouter.Ilp
open Text

def isSpecial (c : Char) : Bool := c == ' ' || c == ',' || c == '=' || c == '\\'

def escape (s : Str) : Str := s.flatMap fun c => if isSpecial c then ['\\', c] else [c]

structure Line where
  measurement : Str
  tags : List (Str × Str)
  /-- The field set and the timestamp, as they stand in the line. -/
  fields : Str
  oneLine : '\n' ∉ measurement ∧ '\n' ∉ fields ∧ ∀ entry ∈ tags, '\n' ∉ entry.1 ∧ '\n' ∉ entry.2

def entryText (entry : Str × Str) : Str := ',' :: escape entry.1 ++ '=' :: escape entry.2

def tagText (tags : List (Str × Str)) (fields : Str) : Str := tags.flatMap entryText ++ ' ' :: fields

namespace Line

def text (line : Line) : Str := escape line.measurement ++ tagText line.tags line.fields

def bytes (line : Line) : Bytes := asBytes line.text

def tag (line : Line) (name : Str) : Option Str :=
  (line.tags.find? fun entry => eqIgnoreAsciiCase entry.1 name).map (·.2)

/-- The key that a line has for a tag: the tag's value, or the tag's name if there is no such tag. -/
def keyOf (line : Line) (name : Str) : Str := (line.tag name).getD name

end Line

def Plain (s : Str) : Prop := ∀ c ∈ s, isSpecial c = false

instance (s : Str) : Decidable (Plain s) :=
  decidable_of_iff (s.all (!isSpecial ·) = true) (by simp [Plain])

@[simp] theorem escape_nil : escape [] = [] := rfl

@[simp] theorem escape_append (s t : Str) : escape (s ++ t) = escape s ++ escape t := by simp [escape]

theorem escape_cons (c : Char) (s : Str) :
    escape (c :: s) = (if isSpecial c then ['\\', c] else [c]) ++ escape s := rfl

theorem escape_eq_backslashed (s : Str) : escape s = backslashed isSpecial s := rfl

theorem escape_eq_self_iff {s : Str} : escape s = s ↔ Plain s := backslashed_eq_self_iff

theorem escape_plain {s : Str} (plain : Plain s) : escape s = s := escape_eq_self_iff.mpr plain

theorem Plain.not_mem {s : Str} (plain : Plain s) {c : Char} (special : isSpecial c = true) : c ∉ s := by
  intro member
  rw [plain c member] at special
  cases special

theorem mem_escape {s : Str} {c : Char} (other : c ≠ '\\') : c ∈ escape s ↔ c ∈ s := mem_backslashed other

theorem Line.newline_not_mem (line : Line) : '\n' ∉ line.text := by
  obtain ⟨measurement, fields, tags⟩ := line.oneLine
  have name : '\n' ∉ escape line.measurement := by rwa [mem_escape (by decide)]
  have entries : '\n' ∉ line.tags.flatMap entryText := by
    intro member
    obtain ⟨entry, inside, member⟩ := List.mem_flatMap.mp member
    obtain ⟨first, second⟩ := tags entry inside
    have first : '\n' ∉ escape entry.1 := by rwa [mem_escape (by decide)]
    have second : '\n' ∉ escape entry.2 := by rwa [mem_escape (by decide)]
    simp [entryText, first, second] at member
  simp [Line.text, tagText, name, entries, fields]

end QuestRouter.Ilp
