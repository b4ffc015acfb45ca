import QuestRouter.Stream.RowText

/-!
# The readers of a line

A row is placed by the measurement and the shard key that are read from its line, and subscribers are shown the
row that the stream's parser reads from it. The keys agree, and the measurements do unless the line has a
space before its first comma.
-/

namespace QuestRouter.Stream
open Text Routing Ilp

variable {F : Type} (parseF64 : Str → Option F)

/-- The value of the first tag of this name, or the name itself. -/
def IlpRow.keyOf (row : IlpRow F) (tag : Str) : Str :=
  ((row.tags.find? fun entry => eqIgnoreAsciiCase entry.1 tag).map (·.2)).getD tag

/-- The table and the key by which a line is placed are those of its row. -/
def ReadersAgree (line : Bytes) : Prop :=
  ∀ row, parseIlpRow parseF64 line = some row →
    measurementFromIlpBytes line = some row.measurement ∧ ∀ tag, shardKeyFromIlp line tag = row.keyOf tag

theorem findSome_entryKey (tag : Str) (pieces : List Str) :
    pieces.findSome? (entryKey tag) =
      ((pieces.filterMap tagOf).find? fun entry => eqIgnoreAsciiCase entry.1 tag).map (·.2) := by
  induction pieces with
  | nil => rfl
  | cons piece pieces ih =>
    rw [List.findSome?_cons, List.filterMap_cons, ih, entryKey, tagOf]
    by_cases present : '=' ∈ piece
    · simp only [present, true_and, if_true, List.find?_cons]
      cases eqIgnoreAsciiCase (upTo '=' piece) tag with
      | true => rfl
      | false => simp
    · simp only [present, false_and, if_false]

theorem shardKey_of_row {line : Str} (oneLine : '\n' ∉ line) (present : ',' ∈ line) (tag : Str) :
    shardKeyFromIlp (asBytes line) tag = (rowOf parseF64 line).keyOf tag := by
  have scanned : shardKeyFromIlpCow (asBytes line) tag = (scanText tag (past ',' line)).getD tag := by
    rw [← upTo_past present] at oneLine
    have key : shardKeyFromIlpCow _ tag = _ := shardKey_of_comma (not_mem_upTo ',' line) oneLine
    rwa [upTo_past present] at key
  rw [shardKeyFromIlp, scanned, scanText, findSome_entryKey]
  rfl

theorem upTo_eq_self_iff {c : Char} {s : Str} : upTo c s = s ↔ c ∉ s := by
  constructor
  · intro same
    rw [← same]
    exact not_mem_upTo c s
  · exact upTo_of_not_mem

theorem readersAgree_iff {line : Str} (oneLine : '\n' ∉ line) :
    ReadersAgree parseF64 (asBytes line) ↔ (',' ∈ line → ' ' ∉ upTo ',' line) := by
  rw [ReadersAgree, parseIlpRow_asBytes parseF64 oneLine, measurement_asBytes oneLine]
  constructor
  · intro agree present spaced
    have nonempty : upTo ',' line ≠ [] := List.ne_nil_of_mem spaced
    obtain ⟨measurement, _⟩ := agree (rowOf parseF64 line) (if_pos ⟨present, nonempty⟩)
    split at measurement
    · cases measurement
    · exact upTo_eq_self_iff.mp (Option.some.inj measurement) spaced
  · intro unspaced row parsed
    split at parsed
    · rename_i found
      obtain ⟨present, nonempty⟩ := found
      obtain rfl := Option.some.inj parsed
      refine ⟨?_, shardKey_of_row parseF64 oneLine present⟩
      rw [upTo_of_not_mem (unspaced present), if_neg nonempty]
      rfl
    · cases parsed

/-- `trades,symbol=BTC-USD price=1,size=2i 9` -/
def taggedLine : Str := "trades,symbol=BTC-USD price=1,size=2i 9".toList

theorem readersAgree_tagged : ReadersAgree parseI64 (asBytes taggedLine) :=
  (readersAgree_iff parseI64 (by decide)).mpr fun _ => by decide

/-- `cpu a=1,b=2 123`, of which the row is taken to measure `cpu a=1`. -/
def untaggedLine : Str := "cpu a=1,b=2 123".toList

theorem row_of_other_table : '\n' ∉ untaggedLine ∧ ¬ ReadersAgree parseI64 (asBytes untaggedLine) := by
  refine ⟨by decide, fun agree => ?_⟩
  have parsed : parseIlpRow parseI64 (asBytes untaggedLine) =
      some ⟨"cpu a=1".toList, [("b".toList, "2".toList)], [], none⟩ := by decide +kernel
  obtain ⟨measurement, _⟩ := agree _ parsed
  exact absurd measurement (by decide +kernel)

end QuestRouter.Stream
