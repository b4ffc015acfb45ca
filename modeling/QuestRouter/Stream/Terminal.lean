import Mathlib.Data.List.Nodup
import Mathlib.Data.List.Range
import QuestRouter.Text.Str

/-!
# The terminal

The state that the page's terminal shows: panels, each for one topic, in a layout that has room for some of them. There
is always a panel, and one of them has the focus.
-/

namespace QuestRouter.Stream.Web
open Text

inductive TerminalView where
  | overview
  | charts
  | stream
  deriving DecidableEq, Repr

/-- `"4"`, `"6"` and `"9"`. -/
inductive LayoutMode where
  | four
  | six
  | nine
  deriving DecidableEq, Repr

def layoutCapacity : LayoutMode → Nat
  | .four => 4
  | .six => 6
  | .nine => 9

def defaultSymbols : List Str :=
  ["btc-usdt", "eth-usdt", "sol-usdt", "doge-usdt", "bnb-usdt", "xrp-usdt", "ada-usdt", "avax-usdt", "link-usdt"].map
    String.toList

/-- Prices are of type `P`, their changes of type `C`. -/
structure PanelState (P C : Type) where
  id : Str
  topic : Str
  focused : Bool
  price : Option P
  change : Option C
  tickCount : Nat
  live : Bool
  deriving DecidableEq, Repr

/-- The fields that are given are set. -/
structure PanelStats (P C : Type) where
  price : Option (Option P) := none
  change : Option (Option C) := none
  tickCount : Option Nat := none
  live : Option Bool := none

structure Terminal (P C : Type) where
  view : TerminalView
  layout : LayoutMode
  panels : List (PanelState P C)
  fullscreenPanelId : Option Str

variable {P C : Type}

/-- A panel that is made with `i` panels before it. -/
def newPanel (id : Str) (i : Nat) (focused : Bool) : PanelState P C where
  id
  topic := (defaultSymbols[i]?).getD ("sym-".toList ++ decimal (i + 1))
  focused
  price := none
  change := none
  tickCount := 0
  live := false

/-- `createPanelId` gives `ids i` for the panel at this place. -/
def createDefaultPanels (layout : LayoutMode) (ids : Nat → Str) : List (PanelState P C) :=
  (List.range (layoutCapacity layout)).map fun i => newPanel (ids i) i (i == 0)

/-- What the terminal is asked for, with the identifiers that are drawn for new panels. -/
inductive TerminalEvent (P C : Type) where
  | setView (view : TerminalView)
  | setLayout (layout : LayoutMode) (ids : Nat → Str)
  | focusPanel (id : Str)
  | expandPanel (id : Str)
  | collapsePanel
  | updatePanelTopic (id topic : Str)
  | bumpPanelTick (id : Str) (price : P)
  | setPanelReplay (id : Str) (tickCount : Nat) (price : Option P)
  | updatePanelStats (id : Str) (stats : PanelStats P C)
  | removePanel (id : Str)
  | addPanel (id : Str)

namespace Terminal

/-- Where no panel has the focus, the first one gets it. -/
def ensureFocused : List (PanelState P C) → List (PanelState P C)
  | [] => []
  | panel :: panels =>
    if (panel :: panels).any PanelState.focused then panel :: panels
    else { panel with focused := true } :: panels.map fun p => { p with focused := false }

def focus (id : Str) (panels : List (PanelState P C)) : List (PanelState P C) :=
  panels.map fun p => { p with focused := p.id == id }

/-- The panel with this identifier is changed. -/
def setPanel (id : Str) (change : PanelState P C → PanelState P C) (panels : List (PanelState P C)) :
    List (PanelState P C) :=
  panels.map fun p => if p.id = id then change p else p

/-- Panels are taken from the end or new ones put there. -/
def fill (capacity : Nat) (ids : Nat → Str) (panels : List (PanelState P C)) : List (PanelState P C) :=
  panels.take capacity ++
    (List.range' panels.length (capacity - panels.length)).map fun i => newPanel (ids i) i (i == 0)

def after (s : Terminal P C) : TerminalEvent P C → Terminal P C
  | .setView view => { s with view, fullscreenPanelId := none }
  | .setLayout layout ids =>
    { s with fullscreenPanelId := none, layout, panels := ensureFocused (fill (layoutCapacity layout) ids s.panels) }
  | .focusPanel id => { s with panels := focus id s.panels }
  | .expandPanel id => { s with panels := focus id s.panels, fullscreenPanelId := some id }
  | .collapsePanel => { s with fullscreenPanelId := none }
  | .updatePanelTopic id topic =>
    { s with
      panels := setPanel id (fun p =>
        { p with topic := topic, price := none, change := none, tickCount := 0, live := false }) s.panels }
  | .bumpPanelTick id price =>
    { s with
      panels := setPanel id (fun p =>
        { p with price := some price, tickCount := p.tickCount + 1, live := true }) s.panels }
  | .setPanelReplay id tickCount price =>
    { s with
      panels := setPanel id (fun p =>
        { p with tickCount := tickCount, price := price.or p.price, live := true }) s.panels }
  | .updatePanelStats id stats =>
    { s with
      panels := setPanel id (fun p =>
        { p with
          price := stats.price.getD p.price
          change := stats.change.getD p.change
          tickCount := stats.tickCount.getD p.tickCount
          live := stats.live.getD p.live }) s.panels }
  | .removePanel id =>
    { s with
      fullscreenPanelId := if s.fullscreenPanelId = some id then none else s.fullscreenPanelId
      panels :=
        if s.panels.length ≤ 1 then s.panels else ensureFocused (s.panels.filter fun p => p.id ≠ id) }
  | .addPanel id =>
    if layoutCapacity s.layout ≤ s.panels.length then s
    else { s with panels := s.panels ++ [newPanel id s.panels.length false] }

def start (ids : Nat → Str) : Terminal P C := ⟨.charts, .six, createDefaultPanels .six ids, none⟩

/-- The panels that are named are there, and new identifiers are not. -/
def Fresh (s : Terminal P C) : TerminalEvent P C → Prop
  | .setLayout layout ids =>
    ((List.range' s.panels.length (layoutCapacity layout - s.panels.length)).map ids).Nodup ∧
      ∀ i ∈ List.range' s.panels.length (layoutCapacity layout - s.panels.length), ids i ∉ s.panels.map PanelState.id
  | .focusPanel id => id ∈ s.panels.map PanelState.id
  | .expandPanel id => id ∈ s.panels.map PanelState.id
  | .addPanel id => id ∉ s.panels.map PanelState.id
  | _ => True

instance Fresh.decidable (s : Terminal P C) : ∀ e, Decidable (s.Fresh e)
  | .setLayout _ _ => inferInstanceAs (Decidable (_ ∧ _))
  | .focusPanel _ | .expandPanel _ => inferInstanceAs (Decidable (_ ∈ _))
  | .addPanel _ => inferInstanceAs (Decidable (_ ∉ _))
  | .setView _ | .collapsePanel | .updatePanelTopic _ _ | .bumpPanelTick _ _ | .setPanelReplay _ _ _
  | .updatePanelStats _ _ | .removePanel _ => .isTrue trivial

/-! ### Every run -/

/-- There are panels, no more than there is room for; they have identifiers of their own, one has the focus, and the
one that fills the screen is there. -/
structure Sound (s : Terminal P C) : Prop where
  present : s.panels ≠ []
  room : s.panels.length ≤ layoutCapacity s.layout
  ids : (s.panels.map PanelState.id).Nodup
  focused : s.panels.countP PanelState.focused = 1
  fullscreen : ∀ id, s.fullscreenPanelId = some id → id ∈ s.panels.map PanelState.id

section
variable {panels : List (PanelState P C)} {id : Str}

theorem ensureFocused_ids (panels : List (PanelState P C)) :
    (ensureFocused panels).map PanelState.id = panels.map PanelState.id := by
  cases panels with
  | nil => rfl
  | cons panel panels =>
    unfold ensureFocused
    dsimp only
    split
    · rfl
    · simp [Function.comp_def]

theorem ensureFocused_focused (present : panels ≠ []) (few : panels.countP PanelState.focused ≤ 1) :
    (ensureFocused panels).countP PanelState.focused = 1 := by
  cases panels with
  | nil => exact absurd rfl present
  | cons panel panels =>
    unfold ensureFocused
    dsimp only
    split
    · rename_i some
      have counted : 0 < (panel :: panels).countP PanelState.focused := by
        rw [List.countP_pos_iff]
        exact List.any_eq_true.mp some
      omega
    · have others : (panels.map fun p => { p with focused := false }).countP PanelState.focused = 0 := by
        simp [List.countP_eq_zero]
      rw [List.countP_cons_of_pos rfl, others]

theorem focus_ids (id : Str) (panels : List (PanelState P C)) :
    (focus id panels).map PanelState.id = panels.map PanelState.id := by
  simp [focus, Function.comp_def]

theorem focus_focused (ids : (panels.map PanelState.id).Nodup) (there : id ∈ panels.map PanelState.id) :
    (focus id panels).countP PanelState.focused = 1 := by
  have counted : (focus id panels).countP PanelState.focused = (panels.map PanelState.id).count id := by
    rw [focus, List.countP_map, List.count, List.countP_map]
    rfl
  rw [counted]
  exact List.count_eq_one_of_mem ids there

/-- A field that the change leaves. -/
theorem setPanel_map {β : Type} (field : PanelState P C → β) {change : PanelState P C → PanelState P C}
    (same : ∀ p, field (change p) = field p) (id : Str) (panels : List (PanelState P C)) :
    (setPanel id change panels).map field = panels.map field := by
  rw [setPanel, List.map_map]
  apply List.map_congr_left
  intro p _
  dsimp only [Function.comp_apply]
  split
  · exact same p
  · rfl

theorem fill_length (capacity : Nat) (ids : Nat → Str) (panels : List (PanelState P C)) :
    (fill capacity ids panels).length = capacity := by
  simp only [fill, List.length_append, List.length_take, List.length_map, List.length_range']
  omega

theorem fill_ids (capacity : Nat) (ids : Nat → Str) (panels : List (PanelState P C)) :
    (fill capacity ids panels).map PanelState.id =
      (panels.map PanelState.id).take capacity ++ (List.range' panels.length (capacity - panels.length)).map ids := by
  simp [fill, Function.comp_def, newPanel, List.map_take]

/-- New panels come after others and do not have the focus. -/
theorem fill_focused (capacity : Nat) (ids : Nat → Str) (present : panels ≠ []) :
    (fill capacity ids panels).countP PanelState.focused ≤ panels.countP PanelState.focused := by
  have new : ((List.range' panels.length (capacity - panels.length)).map fun i =>
      (newPanel (ids i) i (i == 0) : PanelState P C)).countP PanelState.focused = 0 := by
    rw [List.countP_eq_zero]
    intro p member
    obtain ⟨i, range, rfl⟩ := List.mem_map.mp member
    have above : panels.length ≤ i := (List.mem_range'_1.mp range).1
    have some : 0 < panels.length := List.length_pos_iff.mpr present
    have later : (i == 0) = false := by simpa using (by omega : i ≠ 0)
    simp [newPanel, later]
  rw [fill, List.countP_append, new, Nat.add_zero]
  exact (List.take_sublist capacity panels).countP_le

/-- Only one panel has the identifier, and there are two at least. -/
theorem others_left (ids : (panels.map PanelState.id).Nodup) (more : 1 < panels.length) (id : Str) :
    (panels.filter fun p => p.id ≠ id) ≠ [] := by
  intro none
  have all : ∀ other ∈ panels.map PanelState.id, other = id := by
    intro other member
    obtain ⟨p, there, rfl⟩ := List.mem_map.mp member
    have gone := List.filter_eq_nil_iff.mp none p there
    simpa using gone
  rw [List.eq_replicate_iff.mpr ⟨rfl, all⟩, List.nodup_replicate, List.length_map] at ids
  omega

end

variable {s : Terminal P C}

theorem layoutCapacity_pos (layout : LayoutMode) : 0 < layoutCapacity layout := by cases layout <;> decide

/-- A panel changes in other fields than these. -/
theorem Sound.setPanel (sound : Sound s) (id : Str) {change : PanelState P C → PanelState P C}
    (sameId : ∀ p, (change p).id = p.id) (sameFocus : ∀ p, (change p).focused = p.focused) :
    Sound { s with panels := setPanel id change s.panels } := by
  generalize set : Terminal.setPanel id change s.panels = panels
  have ids : panels.map PanelState.id = s.panels.map PanelState.id := set ▸ setPanel_map _ sameId id s.panels
  have focused : panels.map PanelState.focused = s.panels.map PanelState.focused :=
    set ▸ setPanel_map _ sameFocus id s.panels
  have length : panels.length = s.panels.length := by simpa using congrArg List.length ids
  have counted : panels.countP PanelState.focused = s.panels.countP PanelState.focused := by
    have both := congrArg (List.countP fun b => b) focused
    simpa [List.countP_map, Function.comp_def] using both
  refine ⟨?_, ?_, ?_, ?_, ?_⟩
  · have some := List.length_pos_iff.mpr sound.present
    exact List.length_pos_iff.mp (length ▸ some)
  · exact length.trans_le sound.room
  · exact ids.symm ▸ sound.ids
  · exact counted.trans sound.focused
  · exact fun id full => ids.symm ▸ sound.fullscreen id full

theorem Sound.leave (sound : Sound s) (view : TerminalView) : Sound { s with view, fullscreenPanelId := none } :=
  ⟨sound.present, sound.room, sound.ids, sound.focused, fun _ full => by cases full⟩

theorem Sound.setLayout (sound : Sound s) {layout : LayoutMode} {ids : Nat → Str}
    (fresh : s.Fresh (.setLayout layout ids)) : Sound (s.after (.setLayout layout ids)) := by
  obtain ⟨apart, unused⟩ := fresh
  have length : (ensureFocused (fill (layoutCapacity layout) ids s.panels)).length = layoutCapacity layout := by
    have same := congrArg List.length (ensureFocused_ids (fill (layoutCapacity layout) ids s.panels))
    simpa [fill_length] using same
  have present : fill (layoutCapacity layout) ids s.panels ≠ [] := by
    apply List.length_pos_iff.mp
    rw [fill_length]
    exact layoutCapacity_pos layout
  have few := fill_focused (layoutCapacity layout) ids sound.present
  refine ⟨?_, length.le, ?_, ?_, fun _ full => by cases full⟩
  · apply List.length_pos_iff.mp
    exact length.symm ▸ layoutCapacity_pos layout
  · change ((ensureFocused (fill (layoutCapacity layout) ids s.panels)).map PanelState.id).Nodup
    rw [ensureFocused_ids, fill_ids]
    refine List.Nodup.append (sound.ids.sublist (List.take_sublist _ _)) apart ?_
    intro id kept new
    obtain ⟨i, range, rfl⟩ := List.mem_map.mp new
    exact unused i range (List.mem_of_mem_take kept)
  · apply ensureFocused_focused present
    rw [sound.focused] at few
    exact few

theorem Sound.removePanel (sound : Sound s) (id : Str) : Sound (s.after (.removePanel id)) := by
  have present := List.length_pos_iff.mpr sound.present
  have fullscreen : ∀ other, (if s.fullscreenPanelId = some id then none else s.fullscreenPanelId) = some other →
      other ≠ id ∧ other ∈ s.panels.map PanelState.id := by
    intro other full
    split at full
    · cases full
    · rename_i another
      refine ⟨?_, sound.fullscreen other full⟩
      rintro rfl
      exact another full
  by_cases last : s.panels.length ≤ 1
  · have same : s.after (.removePanel id) =
        { s with fullscreenPanelId := if s.fullscreenPanelId = some id then none else s.fullscreenPanelId } := by
      simp only [Terminal.after, if_pos last]
    rw [same]
    exact ⟨sound.present, sound.room, sound.ids, sound.focused, fun other full => (fullscreen other full).2⟩
  · have panels : (s.after (.removePanel id)).panels = ensureFocused (s.panels.filter fun p => p.id ≠ id) :=
      if_neg last
    have ids : (s.after (.removePanel id)).panels.map PanelState.id =
        (s.panels.map PanelState.id).filter fun other => other ≠ id := by
      rw [panels, ensureFocused_ids, List.filter_map]
      rfl
    have left : (s.panels.filter fun p => p.id ≠ id) ≠ [] := others_left sound.ids (by omega) id
    have few : (s.panels.filter fun p => p.id ≠ id).countP PanelState.focused ≤ 1 := by
      rw [← sound.focused]
      exact List.filter_sublist.countP_le
    refine ⟨?_, ?_, ?_, ?_, fun other full => ?_⟩
    · intro none
      have focused := ensureFocused_focused left few
      rw [← panels, none] at focused
      cases focused
    · have fewer : ((s.panels.map PanelState.id).filter fun other => other ≠ id).length ≤ s.panels.length := by
        simpa using List.length_filter_le (fun other => decide (other ≠ id)) (s.panels.map PanelState.id)
      rw [← ids, List.length_map] at fewer
      exact fewer.trans sound.room
    · rw [ids]
      exact sound.ids.filter _
    · rw [panels]
      exact ensureFocused_focused left few
    · rw [ids]
      obtain ⟨different, there⟩ := fullscreen other full
      exact List.mem_filter.mpr ⟨there, by simpa using different⟩

theorem Sound.focus (sound : Sound s) {id : Str} (there : id ∈ s.panels.map PanelState.id) :
    Sound { s with panels := focus id s.panels } := by
  have ids := focus_ids id s.panels
  have length : (Terminal.focus id s.panels).length = s.panels.length := by simpa using congrArg List.length ids
  refine ⟨?_, length.trans_le sound.room, ?_, focus_focused sound.ids there, fun other full => ?_⟩
  · apply List.length_pos_iff.mp
    exact length ▸ List.length_pos_iff.mpr sound.present
  · exact ids.symm ▸ sound.ids
  · exact ids.symm ▸ sound.fullscreen other full

theorem Sound.addPanel (sound : Sound s) {id : Str} (fresh : id ∉ s.panels.map PanelState.id) :
    Sound (s.after (.addPanel id)) := by
  by_cases full : layoutCapacity s.layout ≤ s.panels.length
  · have same : s.after (.addPanel id) = s := if_pos full
    rw [same]
    exact sound
  · have same : s.after (.addPanel id) = { s with panels := s.panels ++ [newPanel id s.panels.length false] } :=
      if_neg full
    rw [same]
    refine ⟨by simp, ?_, ?_, ?_, fun other there => ?_⟩
    · change (s.panels ++ [_]).length ≤ layoutCapacity s.layout
      rw [List.length_append, List.length_singleton]
      omega
    · change ((s.panels ++ [_]).map PanelState.id).Nodup
      rw [List.map_append]
      refine List.Nodup.append sound.ids (List.nodup_singleton _) ?_
      intro other old new
      rw [List.map_singleton, List.mem_singleton] at new
      rw [new] at old
      exact fresh old
    · change (s.panels ++ [_]).countP PanelState.focused = 1
      rw [List.countP_append, sound.focused]
      rfl
    · change other ∈ (s.panels ++ [_]).map PanelState.id
      rw [List.map_append]
      exact List.mem_append_left _ (sound.fullscreen other there)

theorem Sound.after {e : TerminalEvent P C} (sound : Sound s) (fresh : s.Fresh e) : Sound (s.after e) := by
  cases e with
  | setView view => exact sound.leave view
  | setLayout layout ids => exact sound.setLayout fresh
  | focusPanel id => exact sound.focus fresh
  | expandPanel id =>
    obtain ⟨present, room, ids, focused, _⟩ := sound.focus fresh
    refine ⟨present, room, ids, focused, fun other full => ?_⟩
    cases full
    exact (focus_ids id s.panels).symm ▸ fresh
  | collapsePanel => exact sound.leave s.view
  | updatePanelTopic id topic => exact sound.setPanel id (fun _ => rfl) fun _ => rfl
  | bumpPanelTick id price => exact sound.setPanel id (fun _ => rfl) fun _ => rfl
  | setPanelReplay id tickCount price => exact sound.setPanel id (fun _ => rfl) fun _ => rfl
  | updatePanelStats id stats => exact sound.setPanel id (fun _ => rfl) fun _ => rfl
  | removePanel id => exact sound.removePanel id
  | addPanel id => exact sound.addPanel fresh

theorem sound_start {ids : Nat → Str} (fresh : ((List.range 6).map ids).Nodup) :
    Sound (start ids : Terminal P C) := by
  have same : (start ids : Terminal P C).panels.map PanelState.id = (List.range 6).map ids := by
    simp [start, createDefaultPanels, layoutCapacity, Function.comp_def, newPanel]
  refine ⟨by simp [start, createDefaultPanels, layoutCapacity], ?_, same ▸ fresh, ?_, fun _ full => by cases full⟩
  · simp [start, createDefaultPanels]
  · simp [start, createDefaultPanels, layoutCapacity, List.range, List.range.loop, newPanel]

end Terminal
end QuestRouter.Stream.Web
