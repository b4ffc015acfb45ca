import QuestRouter.Stream.Reconnects
import QuestRouter.Stream.Terminal

/-!
# Panels and their subscriptions

Each panel of the terminal keeps a subscription to its topic. When the panels have changed, the client is told first of
the topics that panels have left and then of those that they have come to. The client has one entry for all spellings of
a topic, so all panels are heard as long as no two of them share an entry.
-/

namespace QuestRouter.Stream.Web
open Text Data

variable {P C F : Type}

/-- The panels hand over their identifiers for handlers. -/
structure Dashboard (F P C : Type) where
  terminal : Terminal P C
  timed : Timed F Str

inductive DashboardEvent (P C : Type) where
  | terminal (e : TerminalEvent P C)
  | timed (e : TimedEvent Str)

/-- The browser, the network and the server. -/
def TimedEvent.isElsewhere {H : Type} : TimedEvent H → Bool
  | .page (.server _) => true
  | e => e.isOutside

/-- The panel is there with the same topic. -/
def PanelState.stays (panel : PanelState P C) (panels : List (PanelState P C)) : Bool :=
  panels.any fun p => p.id = panel.id ∧ p.topic = panel.topic

/-- The panels of the first list whose effect does not run on in the second one. -/
def changed (panels others : List (PanelState P C)) : List (PanelState P C) :=
  panels.filter fun p => trim p.topic ≠ [] ∧ p.stays others = false

/-- `useTopicSubscription` of all panels: what is to be cleaned up comes first. -/
def topicEffects (before after : List (PanelState P C)) : List (TimedEvent Str) :=
  ((changed before after).map fun p => .page (.removeTopic p.topic false)) ++
    (changed after before).map fun p => .page (.addTopic p.topic p.id)

namespace Dashboard

variable (browser : Browser) (setup : StreamSetup F)

/-- The first panels, with nothing before them. -/
def mount (ids : Nat → Str) : Option (Dashboard F P C) :=
  (Machine.run (Timed.step browser setup) (.start true) (topicEffects [] (Terminal.start ids : Terminal P C).panels)).map
    fun timed => ⟨.start ids, timed⟩

def step (s : Dashboard F P C) : DashboardEvent P C → Option (Dashboard F P C)
  | .terminal e =>
    (Machine.run (Timed.step browser setup) s.timed (topicEffects s.terminal.panels (s.terminal.after e).panels)).map
      fun timed => ⟨s.terminal.after e, timed⟩
  | .timed e =>
    if e.isElsewhere then (s.timed.step browser setup e).map fun timed => { s with timed } else none

/-- The topics of the page's client. -/
def topics (s : Dashboard F P C) : HashMap Str (Registration Str) := s.timed.page.client.topics

end Dashboard

/-! ### Effects -/

section
variable {browser : Browser} {setup : StreamSetup F} {s t u : Timed F Str}

def PanelState.key (browser : Browser) (p : PanelState P C) : Str := browser.normalizeTopic p.topic

/-- The entry that the client has for a panel. -/
def PanelState.entry (p : PanelState P C) : Registration Str := ⟨trim p.topic, p.id⟩

theorem step_removeTopic {topic : Str} {disconnectIfEmpty : Bool}
    (h : s.step browser setup (.page (.removeTopic topic disconnectIfEmpty)) = some t) (key : Str) :
    t.page.client.topics.get key =
      if browser.normalizeTopic topic = key ∧ key ≠ [] then none else s.page.client.topics.get key := by
  have stepped : s.page.step browser setup (.removeTopic topic disconnectIfEmpty) = some t.page := Timed.step_page h
  obtain ⟨acts, _⟩ := Page.step_acts browser setup stepped
  generalize t.page.client = client at acts ⊢
  generalize t.page.server = server at acts
  cases acts
  rw [StreamClient.removeTopic_topics]
  by_cases blank : browser.normalizeTopic topic = []
  · rw [if_pos blank, if_neg]
    rintro ⟨same, some⟩
    exact some (same ▸ blank)
  · rw [if_neg blank, HashMap.get_erase]
    by_cases same : key = browser.normalizeTopic topic
    · rw [if_pos same, if_pos ⟨same.symm, same ▸ blank⟩]
    · rw [if_neg same, if_neg fun both => same both.1.symm]

theorem step_addTopic {topic : Str} {handlers : Str} (h : s.step browser setup (.page (.addTopic topic handlers)) = some t)
    (key : Str) : t.page.client.topics.get key =
      if browser.normalizeTopic topic = key ∧ key ≠ [] then some ⟨trim topic, handlers⟩
      else s.page.client.topics.get key := by
  have stepped : s.page.step browser setup (.addTopic topic handlers) = some t.page := Timed.step_page h
  obtain ⟨acts, _⟩ := Page.step_acts browser setup stepped
  generalize t.page.client = client at acts ⊢
  generalize t.page.server = server at acts
  cases acts
  rw [StreamClient.addTopic_topics]
  by_cases blank : browser.normalizeTopic topic = []
  · rw [if_pos blank, if_neg]
    rintro ⟨same, some⟩
    exact some (same ▸ blank)
  · rw [if_neg blank]
    by_cases same : key = browser.normalizeTopic topic
    · subst same
      rw [HashMap.get_insert, if_pos ⟨rfl, blank⟩]
    · rw [HashMap.get_insert_ne _ _ same, if_neg fun both => same both.1.symm]

/-- Events from elsewhere leave the topics. -/
theorem step_elsewhere {e : TimedEvent Str} (elsewhere : e.isElsewhere = true)
    (h : s.step browser setup e = some t) : t.page.client.topics = s.page.client.topics := by
  obtain ⟨acts, _⟩ := Page.step_acts browser setup (Timed.step_page h)
  generalize t.page.client = client at acts ⊢
  generalize t.page.server = server at acts
  cases e with
  | fire timer =>
    cases acts
    rfl
  | page e =>
    dsimp only [TimedEvent.pageEvent] at acts
    cases acts with
    | onopen connecting => exact StreamClient.onopen_topics _
    | closing there alive => rfl
    | onclose closed => rfl
    | control there handled => rfl
    | server left stepped => rfl
    | addTopic symbol handlers => cases elsewhere
    | updateTopic old new handlers => cases elsewhere
    | removeTopic symbol disconnectIfEmpty => cases elsewhere
    | disconnect => cases elsewhere
    | reconnect => cases elsewhere

theorem run_cleanups {panels : List (PanelState P C)}
    (reached : Machine.run (Timed.step browser setup) s (panels.map fun p => .page (.removeTopic p.topic false)) = some t)
    (key : Str) : t.page.client.topics.get key =
      if key ≠ [] ∧ ∃ p ∈ panels, p.key browser = key then none else s.page.client.topics.get key := by
  induction panels generalizing s with
  | nil =>
    cases reached
    simp
  | cons p panels ih =>
    obtain ⟨u, first, rest⟩ := Machine.run_cons.mp reached
    rw [ih rest, step_removeTopic first]
    by_cases some : key ≠ []
    · by_cases here : p.key browser = key <;> by_cases later : ∃ q ∈ panels, q.key browser = key <;>
        simp_all [PanelState.key]
    · simp [some]

theorem run_additions_other {panels : List (PanelState P C)} {key : Str}
    (reached : Machine.run (Timed.step browser setup) s (panels.map fun p => .page (.addTopic p.topic p.id)) = some t)
    (other : ∀ p ∈ panels, p.key browser = key → key = []) :
    t.page.client.topics.get key = s.page.client.topics.get key := by
  induction panels generalizing s with
  | nil =>
    cases reached
    rfl
  | cons p panels ih =>
    obtain ⟨here, later⟩ := List.forall_mem_cons.mp other
    obtain ⟨u, first, rest⟩ := Machine.run_cons.mp reached
    rw [ih rest later, step_addTopic first, if_neg]
    rintro ⟨same, some⟩
    exact some (here same)

/-- Panels that are added for one key have the entry of each of them, if it is the same. -/
theorem run_additions_one {panels : List (PanelState P C)} {p : PanelState P C}
    (reached : Machine.run (Timed.step browser setup) s (panels.map fun p => .page (.addTopic p.topic p.id)) = some t)
    (member : p ∈ panels) (filled : p.key browser ≠ [])
    (same : ∀ q ∈ panels, q.key browser = p.key browser → q.entry = p.entry) :
    t.page.client.topics.get (p.key browser) = some p.entry := by
  induction panels generalizing s p with
  | nil => cases member
  | cons q panels ih =>
    obtain ⟨here, later⟩ := List.forall_mem_cons.mp same
    obtain ⟨u, first, rest⟩ := Machine.run_cons.mp reached
    by_cases again : ∃ r ∈ panels, r.key browser = p.key browser
    · obtain ⟨r, there, key⟩ := again
      have entry := later r there key
      have last := ih rest there (key ▸ filled) fun r' member' same' => (later r' member' (same'.trans key)).trans entry.symm
      rw [← key, last, entry]
    · have head : p = q := by
        rcases List.mem_cons.mp member with head | tail
        · exact head
        · exact absurd ⟨p, tail, rfl⟩ again
      subst head
      rw [run_additions_other rest fun r there key => absurd ⟨r, there, key⟩ again, step_addTopic first]
      exact if_pos ⟨rfl, filled⟩

/-! ### Who is heard -/

/-- A panel with a topic. -/
def PanelState.Asks (browser : Browser) (p : PanelState P C) : Prop := trim p.topic ≠ [] ∧ p.key browser ≠ []

instance PanelState.Asks.decidable (p : PanelState P C) : Decidable (p.Asks browser) :=
  inferInstanceAs (Decidable (_ ∧ _))

/-- Two panels that ask for one key are the same. -/
def Distinct (browser : Browser) (panels : List (PanelState P C)) : Prop :=
  ∀ p ∈ panels, ∀ q ∈ panels, p.Asks browser → q.Asks browser → p.key browser = q.key browser → p.id = q.id

instance Distinct.decidable (panels : List (PanelState P C)) : Decidable (Distinct browser panels) :=
  inferInstanceAs (Decidable (∀ p ∈ panels, ∀ q ∈ panels, _))

/-- The client has an entry for each panel, and no others. -/
def Exactly (browser : Browser) (panels : List (PanelState P C)) (topics : HashMap Str (Registration Str)) : Prop :=
  ∀ key entry, topics.get key = some entry ↔ ∃ p ∈ panels, p.Asks browser ∧ p.key browser = key ∧ p.entry = entry

theorem mem_changed {panels others : List (PanelState P C)} {p : PanelState P C} :
    p ∈ changed panels others ↔ p ∈ panels ∧ trim p.topic ≠ [] ∧ ∀ q ∈ others, q.id = p.id → q.topic ≠ p.topic := by
  simp [changed, PanelState.stays]

theorem mem_of_stays {panels others : List (PanelState P C)} {p : PanelState P C} (member : p ∈ panels)
    (asks : p.Asks browser) (stays : p ∉ changed panels others) : ∃ q ∈ others, q.id = p.id ∧ q.topic = p.topic := by
  by_contra none
  push Not at none
  exact stays (mem_changed.mpr ⟨member, asks.1, none⟩)

theorem PanelState.Asks.of_topic {p q : PanelState P C} (asks : p.Asks browser) (same : q.topic = p.topic) :
    q.Asks browser := by
  unfold PanelState.Asks PanelState.key
  rw [same]
  exact asks

theorem eq_of_id {panels : List (PanelState P C)} {p q : PanelState P C} (ids : (panels.map PanelState.id).Nodup)
    (member : p ∈ panels) (member' : q ∈ panels) (same : p.id = q.id) : p = q :=
  List.inj_on_of_nodup_map ids member member' same

section
variable {before after : List (PanelState P C)} {p : PanelState P C}

/-- A panel that has come has its entry. -/
theorem entry_added (added : Machine.run (Timed.step browser setup) s
      ((changed after before).map fun p => .page (.addTopic p.topic p.id)) = some t)
    (ids : (after.map PanelState.id).Nodup) (distinct : Distinct browser after) (asks : p.Asks browser)
    (new : p ∈ changed after before) : t.page.client.topics.get (p.key browser) = some p.entry := by
  apply run_additions_one added new asks.2
  intro q member key
  obtain ⟨there, text, _⟩ := mem_changed.mp member
  have same := distinct q there p (mem_changed.mp new).1 ⟨text, key ▸ asks.2⟩ asks key
  rw [eq_of_id ids there (mem_changed.mp new).1 same]

/-- A panel that stays keeps its entry. -/
theorem entry_kept (cleaned : Machine.run (Timed.step browser setup) s
      ((changed before after).map fun p => .page (.removeTopic p.topic false)) = some u)
    (added : Machine.run (Timed.step browser setup) u
      ((changed after before).map fun p => .page (.addTopic p.topic p.id)) = some t)
    (idsBefore : (before.map PanelState.id).Nodup) (idsAfter : (after.map PanelState.id).Nodup)
    (distinctBefore : Distinct browser before) (distinctAfter : Distinct browser after) (member : p ∈ after)
    (asks : p.Asks browser) (stays : p ∉ changed after before)
    (entry : ∀ q ∈ before, q.Asks browser → s.page.client.topics.get (q.key browser) = some q.entry) :
    t.page.client.topics.get (p.key browser) = some p.entry := by
  obtain ⟨q, was, id, topic⟩ := mem_of_stays member asks stays
  have asked := asks.of_topic topic
  have key : q.key browser = p.key browser := by rw [PanelState.key, topic, PanelState.key]
  -- no other panel comes to the key
  rw [run_additions_other added fun r new same => ?_, run_cleanups cleaned, if_neg, ← key, entry q was asked]
  · rw [PanelState.entry, topic, id, PanelState.entry]
  · rintro ⟨filled, r, gone, same⟩
    obtain ⟨there, text, left⟩ := mem_changed.mp gone
    have identical := distinctBefore r there q was ⟨text, same ▸ asks.2⟩ asked (same.trans key.symm)
    have panel := eq_of_id idsBefore there was identical
    exact left p member (id ▸ panel ▸ rfl) (topic ▸ panel ▸ rfl)
  · obtain ⟨there, text, _⟩ := mem_changed.mp new
    by_contra filled
    have identical := distinctAfter r there p member ⟨text, same ▸ filled⟩ asks same
    exact stays (eq_of_id idsAfter there member identical ▸ new)

/-- A key that no panel asks for any more has no entry. -/
theorem entry_gone (cleaned : Machine.run (Timed.step browser setup) s
      ((changed before after).map fun p => .page (.removeTopic p.topic false)) = some u)
    (added : Machine.run (Timed.step browser setup) u
      ((changed after before).map fun p => .page (.addTopic p.topic p.id)) = some t)
    {key : Str} (nobody : ∀ p ∈ after, p.Asks browser → p.key browser ≠ key)
    (exactly : Exactly browser before s.page.client.topics) : t.page.client.topics.get key = none := by
  rw [run_additions_other added fun r new same => ?_, run_cleanups cleaned]
  · split
    · rfl
    · rename_i stays
      cases entry : s.page.client.topics.get key with
      | none => rfl
      | some registration =>
        obtain ⟨q, was, asked, same, _⟩ := (exactly key registration).mp entry
        refine absurd ⟨same ▸ asked.2, q, mem_changed.mpr ⟨was, asked.1, fun r there id topic => ?_⟩, same⟩ stays
        have key' : r.key browser = key := by rw [PanelState.key, topic, ← same, PanelState.key]
        exact nobody r there (asked.of_topic topic) key'
  · obtain ⟨there, text, _⟩ := mem_changed.mp new
    by_contra filled
    exact nobody r there ⟨text, same ▸ filled⟩ same

/-- With identifiers of their own, and no key shared before or after, the effects leave the entries of the panels. -/
theorem effects_exactly (reached : Machine.run (Timed.step browser setup) s (topicEffects before after) = some t)
    (idsBefore : (before.map PanelState.id).Nodup) (idsAfter : (after.map PanelState.id).Nodup)
    (distinctBefore : Distinct browser before) (distinctAfter : Distinct browser after)
    (exactly : Exactly browser before s.page.client.topics) : Exactly browser after t.page.client.topics := by
  obtain ⟨u, cleaned, added⟩ := Machine.run_append.mp reached
  have heard : ∀ p ∈ after, p.Asks browser → t.page.client.topics.get (p.key browser) = some p.entry := by
    intro p member asks
    by_cases new : p ∈ changed after before
    · exact entry_added added idsAfter distinctAfter asks new
    · apply entry_kept cleaned added idsBefore idsAfter distinctBefore distinctAfter member asks new
      intro q was asked
      exact (exactly _ _).mpr ⟨q, was, asked, rfl, rfl⟩
  intro key entry
  constructor
  · intro found
    by_cases asked : ∃ p ∈ after, p.Asks browser ∧ p.key browser = key
    · obtain ⟨p, member, asks, rfl⟩ := asked
      rw [heard p member asks] at found
      exact ⟨p, member, asks, rfl, Option.some.inj found⟩
    · have gone : t.page.client.topics.get key = none := by
        apply entry_gone cleaned added _ exactly
        intro p member asks same
        exact asked ⟨p, member, asks, same⟩
      rw [gone] at found
      cases found
  · rintro ⟨p, member, asks, rfl, rfl⟩
    exact heard p member asks

end

/-- The entries tell panels apart. -/
theorem Exactly.distinct {panels : List (PanelState P C)} {topics : HashMap Str (Registration Str)}
    (exactly : Exactly browser panels topics) : Distinct browser panels := by
  intro p member q member' asks asks' same
  have mine := (exactly _ _).mpr ⟨p, member, asks, same, rfl⟩
  have other := (exactly _ _).mpr ⟨q, member', asks', rfl, rfl⟩
  rw [mine] at other
  exact congrArg Registration.handlers (Option.some.inj other)

end

/-! ### Every run -/

namespace Dashboard

/-- The client has the handlers of every panel. -/
def Heard (browser : Browser) (s : Dashboard F P C) : Prop :=
  ∀ p ∈ s.terminal.panels, p.Asks browser → s.topics.get (p.key browser) = some p.entry

def Apart (browser : Browser) (s : Dashboard F P C) : Prop := Distinct browser s.terminal.panels

instance Apart.decidable (browser : Browser) (s : Dashboard F P C) : Decidable (s.Apart browser) :=
  Distinct.decidable s.terminal.panels

def Fresh (s : Dashboard F P C) : DashboardEvent P C → Prop
  | .terminal e => s.terminal.Fresh e
  | .timed _ => True

instance Fresh.decidable (s : Dashboard F P C) : ∀ e, Decidable (s.Fresh e)
  | .terminal e => inferInstanceAs (Decidable (s.terminal.Fresh e))
  | .timed _ => .isTrue trivial

variable {browser : Browser} {setup : StreamSetup F} {s t : Dashboard F P C} {e : DashboardEvent P C}

/-- What holds as long as the panels are apart. -/
structure Tended (browser : Browser) (s : Dashboard F P C) : Prop where
  sound : s.terminal.Sound
  exactly : Exactly browser s.terminal.panels s.topics
  page : Page.Kept browser s.timed.page

theorem Tended.heard (tended : Tended browser s) : Heard browser s :=
  fun p member asks => (tended.exactly _ _).mpr ⟨p, member, asks, rfl, rfl⟩

theorem Heard.apart (heard : Heard browser s) : Apart browser s := by
  intro p member q member' asks asks' same
  have mine := heard p member asks
  rw [same, heard q member' asks'] at mine
  exact (congrArg Registration.handlers (Option.some.inj mine)).symm

theorem kept_timed {events : List (TimedEvent Str)} {u v : Timed F Str} (kept : Page.Kept browser u.page)
    (reached : Machine.run (Timed.step browser setup) u events = some v) : Page.Kept browser v.page :=
  Page.kept_run kept (Timed.page_run reached)

theorem tended_mount {ids : Nat → Str} (fresh : ((List.range 6).map ids).Nodup)
    (mounted : mount browser setup ids = some s) (apart : Apart browser s) : Tended browser s := by
  obtain ⟨timed, effects, rfl⟩ := Option.map_eq_some_iff.mp mounted
  have sound : (Terminal.start ids : Terminal P C).Sound := Terminal.sound_start fresh
  have nothing : Exactly browser ([] : List (PanelState P C)) (Timed.start true : Timed F Str).page.client.topics := by
    intro key entry
    constructor
    · intro found
      cases found
    · rintro ⟨p, member, _⟩
      cases member
  refine ⟨sound, ?_, kept_timed (Page.kept_start true) effects⟩
  exact effects_exactly effects List.nodup_nil sound.ids nothing.distinct apart nothing

theorem Tended.step (tended : Tended browser s) (fresh : s.Fresh e) (h : s.step browser setup e = some t)
    (apart : Apart browser t) : Tended browser t := by
  cases e with
  | terminal e =>
    obtain ⟨timed, effects, rfl⟩ := Option.map_eq_some_iff.mp h
    have sound := tended.sound.after fresh
    refine ⟨sound, ?_, kept_timed tended.page effects⟩
    exact effects_exactly effects tended.sound.ids sound.ids tended.exactly.distinct apart tended.exactly
  | timed e =>
    by_cases elsewhere : e.isElsewhere = true
    · rw [Dashboard.step, if_pos elsewhere] at h
      obtain ⟨timed, stepped, rfl⟩ := Option.map_eq_some_iff.mp h
      have topics : timed.page.client.topics = s.timed.page.client.topics := step_elsewhere elsewhere stepped
      have one : Machine.run (Timed.step browser setup) s.timed [e] = some timed :=
        Machine.run_cons.mpr ⟨timed, stepped, rfl⟩
      refine ⟨tended.sound, ?_, kept_timed tended.page one⟩
      change Exactly browser s.terminal.panels timed.page.client.topics
      rw [topics]
      exact tended.exactly
    · rw [Dashboard.step, if_neg elsewhere] at h
      cases h

theorem always_tended {ids : Nat → Str} (fresh : ((List.range 6).map ids).Nodup)
    (mounted : mount browser setup ids = some s) {events : List (DashboardEvent P C)}
    (named : Machine.Meets (step browser setup) Fresh s events)
    (apart : Machine.Always (step browser setup) (Apart browser) s events) :
    Machine.Always (step browser setup) (Tended browser) s events :=
  Machine.always_of_meets (fun _ _ _ tended fresh h apart => tended.step fresh h apart)
    (tended_mount fresh mounted apart.first) named apart

/-- In a run of the terminal, the client has the handlers of every panel all the time exactly if no two panels ever ask
for one key. -/
theorem heard_iff {ids : Nat → Str} (fresh : ((List.range 6).map ids).Nodup)
    (mounted : mount browser setup ids = some s) {events : List (DashboardEvent P C)}
    (named : Machine.Meets (step browser setup) Fresh s events) :
    Machine.Always (step browser setup) (Heard browser) s events ↔
      Machine.Always (step browser setup) (Apart browser) s events :=
  ⟨fun heard => heard.imp fun _ => Heard.apart,
    fun apart => (always_tended fresh mounted named apart).imp fun _ => Tended.heard⟩

/-- The first panel is closed, and the one that is opened has the topic of the last. -/
def closesAndOpens : List (DashboardEvent Nat Nat) :=
  [.terminal (.removePanel "0".toList), .terminal (.addPanel "6".toList)]

theorem heard_iff_twice : ∃ s, mount Page.asciiBrowser Page.packedTrades decimal = some s ∧
    ¬ Machine.Always (step Page.asciiBrowser Page.packedTrades) (Heard Page.asciiBrowser) s closesAndOpens := by
  obtain ⟨s, t, p, q, mounted, named, reached, there, there', asks, asks', same, different⟩ :
      ∃ s t p q, mount Page.asciiBrowser Page.packedTrades decimal = some s ∧
        Machine.Meets (step Page.asciiBrowser Page.packedTrades) Fresh s closesAndOpens ∧
        Machine.run (step Page.asciiBrowser Page.packedTrades) s closesAndOpens = some t ∧
        t.terminal.panels[4]? = some p ∧ t.terminal.panels[5]? = some q ∧ p.Asks Page.asciiBrowser ∧
        q.Asks Page.asciiBrowser ∧ p.key Page.asciiBrowser = q.key Page.asciiBrowser ∧ p.id ≠ q.id :=
    ⟨_, _, _, _, rfl, by decide +kernel, rfl, rfl, rfl, by decide +kernel, by decide +kernel, by decide +kernel,
      by decide +kernel⟩
  refine ⟨s, mounted, fun heard => ?_⟩
  have apart := ((heard_iff (by decide) mounted named).mp heard).last reached
  exact different (apart p (List.mem_of_getElem? there) q (List.mem_of_getElem? there') asks asks' same)

/-- As long as no two panels ask for one key, a row calls the panel whose key is its topic and no other, and a
connection that has read what is sent to it holds the keys of the panels and no others. -/
theorem panels_served {ids : Nat → Str} (fresh : ((List.range 6).map ids).Nodup)
    (mounted : mount browser setup ids = some s) {events : List (DashboardEvent P C)}
    (named : Machine.Meets (step browser setup) Fresh s events)
    (apart : Machine.Always (step browser setup) (Apart browser) s events)
    (reached : Machine.run (step browser setup) s events = some t) :
    (∀ wire row registration row', browser.decode wire = some (.row row) →
      (.onRow registration row' ∈ t.timed.page.client.onmessage browser wire ↔
        (∃ p ∈ t.terminal.panels, p.Asks browser ∧
          p.key browser = browser.normalizeTopic (browser.deriveTopicFromRow row) ∧ p.entry = registration) ∧
        row' = row)) ∧
    ∀ i sent conn, t.timed.page.client.current = some (i, sent) → t.timed.page.server.connections[i]? = some conn →
      conn.reader = true → ∀ key, ControlIn.after key sent (conn.subscriptions.get key).isSome = true ↔
        ∃ p ∈ t.terminal.panels, p.Asks browser ∧ p.key browser = key := by
  have tended : Tended browser t := (always_tended fresh mounted named apart).last reached
  constructor
  · intro wire row registration row' decoded
    rw [Page.onRow_iff decoded]
    exact and_congr_left' (tended.exactly _ _)
  · intro i sent conn used found reads key
    rw [tended.page.subscribed.keys i sent conn used found reads key, Option.isSome_iff_exists]
    constructor
    · rintro ⟨entry, there⟩
      obtain ⟨p, member, asks, same, _⟩ := (tended.exactly key entry).mp there
      exact ⟨p, member, asks, same⟩
    · rintro ⟨p, member, asks, same⟩
      exact ⟨p.entry, (tended.exactly key p.entry).mpr ⟨p, member, asks, same, rfl⟩⟩

/-- The first panel gets another topic, and the socket opens. -/
def movesAndOpens : List (DashboardEvent Nat Nat) :=
  [.terminal (.updatePanelTopic "0".toList "BTC".toList), .timed (.page (.onopen 0))]

theorem panels_served_btc : ∃ s t conn sent, mount Page.asciiBrowser Page.packedTrades decimal = some s ∧
    Machine.run (step Page.asciiBrowser Page.packedTrades) s movesAndOpens = some t ∧
    .onRow ⟨"BTC".toList, "0".toList⟩ ⟨"trades".toList, [("symbol".toList, "btc".toList)]⟩ ∈
      t.timed.page.client.onmessage Page.asciiBrowser (Page.packTrade "btc".toList) ∧
    t.timed.page.client.current = some (0, sent) ∧ t.timed.page.server.connections[0]? = some conn ∧
    ControlIn.after "btc".toList sent (conn.subscriptions.get "btc".toList).isSome = true := by
  obtain ⟨s, t, conn, sent, p, mounted, named, apart, reached, used, found, reads, there, asks, same, entry⟩ :
      ∃ s t conn sent p, mount Page.asciiBrowser Page.packedTrades decimal = some s ∧
        Machine.Meets (step Page.asciiBrowser Page.packedTrades) Fresh s movesAndOpens ∧
        Machine.Always (step Page.asciiBrowser Page.packedTrades) (Apart Page.asciiBrowser) s movesAndOpens ∧
        Machine.run (step Page.asciiBrowser Page.packedTrades) s movesAndOpens = some t ∧
        t.timed.page.client.current = some (0, sent) ∧ t.timed.page.server.connections[0]? = some conn ∧
        conn.reader = true ∧ t.terminal.panels[0]? = some p ∧ p.Asks Page.asciiBrowser ∧
        p.key Page.asciiBrowser = "btc".toList ∧ p.entry = ⟨"BTC".toList, "0".toList⟩ :=
    ⟨_, _, _, _, _, rfl, by decide +kernel, by decide +kernel, rfl, rfl, rfl, rfl, rfl, by decide +kernel,
      by decide +kernel, by decide +kernel⟩
  obtain ⟨rows, keys⟩ := panels_served (by decide) mounted named apart reached
  have member := List.mem_of_getElem? there
  refine ⟨s, t, conn, sent, mounted, reached, ?_, used, found, ?_⟩
  · have topic : Page.asciiBrowser.normalizeTopic (Page.asciiBrowser.deriveTopicFromRow
        ⟨"trades".toList, [("symbol".toList, "btc".toList)]⟩) = "btc".toList := by decide +kernel
    exact (rows _ _ _ _ (by decide +kernel)).mpr ⟨⟨p, member, asks, same.trans topic.symm, entry⟩, rfl⟩
  · exact (keys 0 sent conn used found reads _).mpr ⟨p, member, asks, same⟩

end Dashboard
end QuestRouter.Stream.Web
