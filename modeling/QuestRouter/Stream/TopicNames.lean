import QuestRouter.Data.Pieces
import QuestRouter.Stream.Socket

/-!
# Names of topics

The topic of a row joins the values of the configured tags, with a placeholder for each that the row lacks. Values
may have the separator in them, or be the placeholder, and a single one may be the name that stands for all topics.
-/

namespace QuestRouter.Stream
open Text Data

variable {F : Type} {config : StreamConfig} {a b row : IlpRow F}

def IlpRow.tag (row : IlpRow F) (name : Str) : Option Str :=
  (row.tags.find? fun t => eqIgnoreAsciiCase t.1 name).map Prod.snd

/-- What stands in the topic of the row for a tag. -/
def StreamConfig.part (config : StreamConfig) (row : IlpRow F) (tag : Str) : Str :=
  (row.tag tag).getD config.topicMissing

/-- What stands between the separators, those within the parts included. -/
def StreamConfig.pieces (config : StreamConfig) (row : IlpRow F) : List Str :=
  config.topicTags.flatMap fun tag => (config.part row tag).splitOn '@'

/-- The rows share a topic only if they agree on every configured tag, and neither has the reserved name. -/
structure TopicsApart (config : StreamConfig) (a b : IlpRow F) : Prop where
  agree : deriveTopic a config = deriveTopic b config → ∀ tag ∈ config.topicTags, a.tag tag = b.tag tag
  reserved : ∀ row ∈ [a, b], deriveTopic row config ≠ wildcardTopic

/-- Where the pieces are the same, each tag has as many separators in both rows, and is in both or in neither; and
a part that is all of a topic is not the reserved name. -/
structure PartsApart (config : StreamConfig) (a b : IlpRow F) : Prop where
  agree : config.pieces a = config.pieces b → ∀ tag ∈ config.topicTags,
    (config.part a tag).count '@' = (config.part b tag).count '@' ∧ (a.tag tag).isSome = (b.tag tag).isSome
  reserved : ∀ tag, config.topicTags = [tag] → ∀ row ∈ [a, b], config.part row tag ≠ wildcardTopic

theorem deriveTopic_eq (row : IlpRow F) (config : StreamConfig) :
    deriveTopic row config = ['@'].intercalate (config.topicTags.map (config.part row)) := rfl

theorem deriveTopic_eq_iff : deriveTopic a config = deriveTopic b config ↔ config.pieces a = config.pieces b := by
  rw [deriveTopic_eq, deriveTopic_eq, StreamConfig.pieces, StreamConfig.pieces]
  cases tags : config.topicTags with
  | nil => exact ⟨fun _ => rfl, fun _ => rfl⟩
  | cons tag rest =>
    rw [intercalate_eq_iff (by simp) (by simp), List.flatMap_map, List.flatMap_map]

/-- A topic of several parts has a separator. -/
theorem deriveTopic_eq_wildcard :
    deriveTopic row config = wildcardTopic ↔ ∃ tag, config.topicTags = [tag] ∧ config.part row tag = wildcardTopic := by
  rw [deriveTopic_eq]
  match config.topicTags with
  | [] => simp [wildcardTopic]
  | [tag] => simp
  | tag :: next :: rest =>
    have separated : '@' ∈ ['@'].intercalate ((tag :: next :: rest).map (config.part row)) := by
      rw [List.map_cons, List.map_cons, List.intercalate_cons_cons]
      simp
    constructor
    · intro same
      rw [same] at separated
      exact absurd separated (by decide)
    · rintro ⟨only, single, _⟩
      cases single

/-- The parts of a tag are the same exactly if the rows agree on it, where both have it or both lack it. -/
theorem tag_eq_iff {tag : Str} (present : (a.tag tag).isSome = (b.tag tag).isSome) :
    a.tag tag = b.tag tag ↔ config.part a tag = config.part b tag := by
  unfold StreamConfig.part
  cases left : a.tag tag <;> cases right : b.tag tag <;> simp_all

theorem topicsApart_iff (config : StreamConfig) (a b : IlpRow F) : TopicsApart config a b ↔ PartsApart config a b := by
  constructor
  · rintro ⟨agree, reserved⟩
    refine ⟨fun same tag member => ?_, fun tag single row which part => ?_⟩
    · have equal := agree (deriveTopic_eq_iff.mpr same) tag member
      rw [StreamConfig.part, StreamConfig.part, equal]
      exact ⟨rfl, rfl⟩
    · exact reserved row which (deriveTopic_eq_wildcard.mpr ⟨tag, single, part⟩)
  · rintro ⟨agree, reserved⟩
    refine ⟨fun same tag member => ?_, fun row which wildcard => ?_⟩
    · have pieces := deriveTopic_eq_iff.mp same
      have parts := eq_of_pieces (fun tag member => (agree pieces tag member).1) pieces tag member
      exact (tag_eq_iff (agree pieces tag member).2).mpr parts
    · obtain ⟨tag, single, part⟩ := deriveTopic_eq_wildcard.mp wildcard
      exact reserved tag single row which part

/-- A configuration with two tags. -/
def pairs : StreamConfig := { StreamConfig.default with topicTags := ["symbol".toList, "exchange".toList] }

def tagged (tags : List (Str × Str)) : IlpRow Int := ⟨"trades".toList, tags, [("price".toList, .float 1)], none⟩

/-- Two rows that agree on no tag share a topic, and a row without a symbol has the reserved name. -/
theorem topics_mixed :
    parseIlpRow (fun s => parseI64 s) (asBytes "trades,symbol=A@B,exchange=C price=1".toList) =
      some (tagged [("symbol".toList, "A@B".toList), ("exchange".toList, "C".toList)]) ∧
    parseIlpRow (fun s => parseI64 s) (asBytes "trades,symbol=A,exchange=B@C price=1".toList) =
      some (tagged [("symbol".toList, "A".toList), ("exchange".toList, "B@C".toList)]) ∧
    parseIlpRow (fun s => parseI64 s) (asBytes "trades,exchange=C price=1".toList) =
      some (tagged [("exchange".toList, "C".toList)]) ∧
    ¬ TopicsApart pairs (tagged [("symbol".toList, "A@B".toList), ("exchange".toList, "C".toList)])
      (tagged [("symbol".toList, "A".toList), ("exchange".toList, "B@C".toList)]) ∧
    ¬ TopicsApart .default (tagged [("exchange".toList, "C".toList)]) (tagged [("exchange".toList, "C".toList)]) := by
  refine ⟨by decide +kernel, by decide +kernel, by decide +kernel, fun apart => ?_, fun apart => ?_⟩
  · exact absurd (apart.agree (by decide +kernel) "symbol".toList (by decide)) (by decide +kernel)
  · exact apart.reserved _ List.mem_cons_self (by decide +kernel)

end QuestRouter.Stream
