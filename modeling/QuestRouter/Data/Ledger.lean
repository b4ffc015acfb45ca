import Mathlib.Algebra.BigOperators.Group.Finset.Piecewise
import Mathlib.Algebra.Ring.Nat
import QuestRouter.Data.Broadcast

/-!
# Ledgers of channels

What each receiver was sent, what it has read, and how much it was told it missed, beside the channels themselves.
What it was sent is first what it has read or missed, and then what it has not read yet.
-/

namespace QuestRouter.Data.Broadcast

variable {τ : Type}

inductive BusUse (τ : Type) where
  | subscribe (channel : Nat)
  | drop (r : Nat)
  | send (capacity channel : Nat) (t : τ)
  | tryRecv (r : Nat)

namespace Bus

def use (b : Bus τ) : BusUse τ → Bus τ
  | .subscribe channel => b.subscribe channel
  | .drop r => b.drop r
  | .send capacity channel t => b.send capacity channel t
  | .tryRecv r => ((b.tryRecv r).map Prod.snd).getD b

/-- What is sent to a receiver. -/
def sends (b : Bus τ) (u : BusUse τ) (r : Nat) : List τ :=
  match u with
  | .send _ channel t => if (b.receiver r).any fun rc => rc.channel = channel then [t] else []
  | _ => []

/-- What a receiver reads. -/
def reads (b : Bus τ) (u : BusUse τ) (r : Nat) : List τ :=
  match u with
  | .tryRecv r' =>
    match b.tryRecv r' with
    | some (.value t, _) => if r' = r then [t] else []
    | _ => []
  | _ => []

/-- How much is reported as missed. -/
def reported (b : Bus τ) (u : BusUse τ) : Nat :=
  match u with
  | .tryRecv r =>
    match b.tryRecv r with
    | some (.lagged n, _) => n
    | _ => 0
  | _ => 0

/-- How much a receiver is told that it missed. -/
def reports (b : Bus τ) (u : BusUse τ) (r : Nat) : Nat :=
  match u with
  | .tryRecv r' => if r' = r then b.reported u else 0
  | _ => 0

/-- What `try_recv` finds. -/
inductive Receives (b : Bus τ) (r : Nat) : Option (Received τ × Bus τ) → Prop
  | gone (dead : b.receiver r = none) : Receives b r none
  | value {rc : Receiver τ} {t : τ} {rest : List τ} (live : b.receiver r = some rc) (unread : rc.unread = t :: rest)
      (whole : rc.missed = 0) : Receives b r (some (.value t, b.update r { rc with unread := rest }))
  | empty {rc : Receiver τ} (live : b.receiver r = some rc) (unread : rc.unread = []) (whole : rc.missed = 0) :
      Receives b r (some (.empty, b))
  | lagged {rc : Receiver τ} (live : b.receiver r = some rc) (missed : rc.missed ≠ 0) :
      Receives b r (some (.lagged rc.missed, b.update r { rc with missed := 0 }))

theorem tryRecv_receives (b : Bus τ) (r : Nat) : Receives b r (b.tryRecv r) := by
  unfold tryRecv
  cases live : b.receiver r with
  | none => exact .gone live
  | some rc =>
    rw [Option.map_some]
    by_cases whole : rc.missed = 0
    · rw [if_pos whole]
      cases unread : rc.unread with
      | nil => exact .empty live unread whole
      | cons t rest => exact .value live unread whole
    · rw [if_neg whole]
      exact .lagged live whole

/-- A value that is delivered is read after the unread ones, of which the first may be lost for it. -/
theorem deliver_lost (rc : Receiver τ) (capacity : Nat) (t : τ) :
    ∃ lost, rc.unread ++ [t] = lost ++ (rc.deliver capacity t).unread ∧
      (rc.deliver capacity t).missed = rc.missed + lost.length := by
  unfold Receiver.deliver
  split
  · exact ⟨[], rfl, rfl⟩
  · cases unread : rc.unread with
    | nil => exact ⟨[t], rfl, rfl⟩
    | cons first rest => exact ⟨[first], rfl, rfl⟩

end Bus

structure Ledger (τ : Type) where
  bus : Bus τ := .new
  sent : Nat → List τ := fun _ => []
  taken : Nat → List τ := fun _ => []
  counted : Nat → Nat := fun _ => 0

namespace Ledger

variable {l : Ledger τ}

def record (l : Ledger τ) (u : BusUse τ) : Ledger τ where
  bus := l.bus.use u
  sent r := l.sent r ++ l.bus.sends u r
  taken r := l.taken r ++ l.bus.reads u r
  counted r := l.counted r + l.bus.reports u r

@[simp] theorem record_sent (u : BusUse τ) (r : Nat) : (l.record u).sent r = l.sent r ++ l.bus.sends u r := rfl

@[simp] theorem record_taken (u : BusUse τ) (r : Nat) : (l.record u).taken r = l.taken r ++ l.bus.reads u r := rfl

@[simp] theorem record_counted (u : BusUse τ) (r : Nat) :
    (l.record u).counted r = l.counted r + l.bus.reports u r := rfl

/-- What all receivers were told that they missed. -/
def lost (l : Ledger τ) : Nat := ∑ r ∈ Finset.range l.bus.next, l.counted r

/-- What was sent is read in order or missed, and the rest is unread. -/
structure Accounts (l : Ledger τ) (r : Nat) (rc : Receiver τ) (past : List τ) : Prop where
  sent : l.sent r = past ++ rc.unread
  taken : (l.taken r).Sublist past
  length : past.length = (l.taken r).length + l.counted r + rc.missed

structure Balanced (l : Ledger τ) : Prop where
  live : ∀ r rc, l.bus.receiver r = some rc → ∃ past, l.Accounts r rc past
  all : ∀ r, (l.taken r).Sublist (l.sent r) ∧ (l.taken r).length + l.counted r ≤ (l.sent r).length
  new : ∀ r, l.bus.next ≤ r → l.sent r = [] ∧ l.taken r = [] ∧ l.counted r = 0

theorem balanced_new : Balanced ({} : Ledger τ) :=
  ⟨fun _ _ live => (by cases live), fun _ => ⟨.refl [], Nat.le_refl 0⟩, fun _ _ => ⟨rfl, rfl, rfl⟩⟩

theorem Accounts.all {r : Nat} {rc : Receiver τ} {past : List τ} (accounts : l.Accounts r rc past) :
    (l.taken r).Sublist (l.sent r) ∧ (l.taken r).length + l.counted r ≤ (l.sent r).length := by
  obtain ⟨sent, taken, length⟩ := accounts
  rw [sent]
  refine ⟨taken.trans (List.sublist_append_left past _), ?_⟩
  rw [List.length_append]
  omega

/-- A use has no entries for a receiver. -/
structure Quiet (l : Ledger τ) (u : BusUse τ) (r : Nat) : Prop where
  sends : l.bus.sends u r = []
  reads : l.bus.reads u r = []
  reports : l.bus.reports u r = 0

theorem Quiet.sent {u : BusUse τ} {r : Nat} (quiet : Quiet l u r) : (l.record u).sent r = l.sent r := by
  rw [record_sent, quiet.sends, List.append_nil]

theorem Quiet.taken {u : BusUse τ} {r : Nat} (quiet : Quiet l u r) : (l.record u).taken r = l.taken r := by
  rw [record_taken, quiet.reads, List.append_nil]

theorem Quiet.counted {u : BusUse τ} {r : Nat} (quiet : Quiet l u r) : (l.record u).counted r = l.counted r := by
  rw [record_counted, quiet.reports, Nat.add_zero]

theorem Quiet.accounts {u : BusUse τ} {r : Nat} {rc : Receiver τ} {past : List τ} (quiet : Quiet l u r)
    (accounts : l.Accounts r rc past) : (l.record u).Accounts r rc past := by
  refine ⟨?_, ?_, ?_⟩
  · rw [quiet.sent]
    exact accounts.sent
  · rw [quiet.taken]
    exact accounts.taken
  · rw [quiet.taken, quiet.counted]
    exact accounts.length

theorem record_subscribe (balanced : Balanced l) (channel : Nat) : Balanced (l.record (.subscribe channel)) := by
  have quiet : ∀ r, Quiet l (.subscribe channel) r := fun _ => ⟨rfl, rfl, rfl⟩
  refine ⟨fun r rc live => ?_, fun r => ?_, fun r above => ?_⟩
  · have live : (l.bus.subscribe channel).receiver r = some rc := live
    rw [Bus.subscribe_receiver] at live
    split at live
    · rename_i first
      cases live
      obtain ⟨sent, taken, counted⟩ := balanced.new r (by omega)
      refine ⟨[], (quiet r).accounts ⟨sent, ?_, ?_⟩⟩
      · rw [taken]
      · rw [taken, counted]
        rfl
    · obtain ⟨past, accounts⟩ := balanced.live r rc live
      exact ⟨past, (quiet r).accounts accounts⟩
  · rw [(quiet r).sent, (quiet r).taken, (quiet r).counted]
    exact balanced.all r
  · have above : l.bus.next + 1 ≤ r := above
    rw [(quiet r).sent, (quiet r).taken, (quiet r).counted]
    exact balanced.new r (by omega)

/-- It is enough that receivers have their accounts, and that there are no entries for others. -/
theorem balanced_of_live {u : BusUse τ} (balanced : Balanced l) (next : (l.bus.use u).next = l.bus.next)
    (live : ∀ r rc, (l.bus.use u).receiver r = some rc → ∃ past, (l.record u).Accounts r rc past)
    (dead : ∀ r, (l.bus.use u).receiver r = none → Quiet l u r) : Balanced (l.record u) := by
  refine ⟨live, fun r => ?_, fun r above => ?_⟩
  · cases there : (l.bus.use u).receiver r with
    | some rc =>
      obtain ⟨past, accounts⟩ := live r rc there
      exact accounts.all
    | none =>
      have quiet := dead r there
      rw [quiet.sent, quiet.taken, quiet.counted]
      exact balanced.all r
  · have above : (l.bus.use u).next ≤ r := above
    have quiet := dead r ((l.bus.use u).bounded r above)
    rw [quiet.sent, quiet.taken, quiet.counted]
    exact balanced.new r (by omega)

theorem record_drop (balanced : Balanced l) (r : Nat) : Balanced (l.record (.drop r)) := by
  have quiet : ∀ r', Quiet l (.drop r) r' := fun _ => ⟨rfl, rfl, rfl⟩
  refine balanced_of_live balanced rfl (fun r' rc live => ?_) fun r' _ => quiet r'
  have live : (l.bus.drop r).receiver r' = some rc := live
  rw [Bus.drop_receiver] at live
  split at live
  · cases live
  · obtain ⟨past, accounts⟩ := balanced.live r' rc live
    exact ⟨past, (quiet r').accounts accounts⟩

theorem record_send (balanced : Balanced l) (capacity channel : Nat) (t : τ) :
    Balanced (l.record (.send capacity channel t)) := by
  refine balanced_of_live balanced rfl (fun r rc live => ?_) fun r gone => ?_
  · have live : (l.bus.send capacity channel t).receiver r = some rc := live
    rw [Bus.send_receiver] at live
    obtain ⟨rc', was, rfl⟩ := Option.map_eq_some_iff.mp live
    obtain ⟨past, accounts⟩ := balanced.live r rc' was
    have sends : l.bus.sends (.send capacity channel t) r = if rc'.channel = channel then [t] else [] := by
      simp [Bus.sends, was]
    by_cases on : rc'.channel = channel
    · rw [if_pos on] at sends ⊢
      obtain ⟨lost, split, missed⟩ := Bus.deliver_lost rc' capacity t
      have length := accounts.length
      refine ⟨past ++ lost, ?_, ?_, ?_⟩
      · rw [record_sent, sends, accounts.sent, List.append_assoc, split, List.append_assoc]
      · rw [record_taken]
        simp only [Bus.reads, List.append_nil]
        exact accounts.taken.trans (List.sublist_append_left past lost)
      · rw [record_taken, record_counted, List.length_append, missed]
        simp only [Bus.reads, Bus.reports, List.append_nil, Nat.add_zero]
        omega
    · rw [if_neg on] at sends ⊢
      have quiet : Quiet l (.send capacity channel t) r := ⟨sends, rfl, rfl⟩
      exact ⟨past, quiet.accounts accounts⟩
  · have gone : (l.bus.send capacity channel t).receiver r = none := gone
    rw [Bus.send_receiver, Option.map_eq_none_iff] at gone
    exact ⟨by simp [Bus.sends, gone], rfl, rfl⟩

/-- A receiver that nothing is received from keeps its accounts. -/
theorem quiet_tryRecv {r r' : Nat} (other : r ≠ r') : Quiet l (.tryRecv r) r' := by
  refine ⟨rfl, ?_, if_neg other⟩
  unfold Bus.reads
  dsimp only
  split
  · rw [if_neg other]
  · rfl

/-- Nothing is received. -/
theorem record_nothing {r : Nat} (balanced : Balanced l) (bus : l.bus.use (.tryRecv r) = l.bus)
    (quiet : ∀ r', Quiet l (.tryRecv r) r') : Balanced (l.record (.tryRecv r)) := by
  refine balanced_of_live balanced (by rw [bus]) (fun r' rc live => ?_) fun r' _ => quiet r'
  rw [bus] at live
  obtain ⟨past, accounts⟩ := balanced.live r' rc live
  exact ⟨past, (quiet r').accounts accounts⟩

/-- The receiver itself changes, and has its accounts. -/
theorem record_update {r : Nat} {rc rc' : Receiver τ} {past : List τ} (balanced : Balanced l)
    (live : l.bus.receiver r = some rc) (bus : l.bus.use (.tryRecv r) = l.bus.update r rc')
    (accounts : (l.record (.tryRecv r)).Accounts r rc' past) : Balanced (l.record (.tryRecv r)) := by
  have receiver : ∀ r', (l.bus.use (.tryRecv r)).receiver r' = if r' = r then some rc' else l.bus.receiver r' := by
    intro r'
    rw [bus, Bus.update_receiver, live]
    rfl
  refine balanced_of_live balanced (by rw [bus]; rfl) (fun r' other there => ?_) fun r' gone => ?_
  · rw [receiver] at there
    split at there
    · rename_i here
      obtain rfl := Option.some.inj there
      rw [here]
      exact ⟨past, accounts⟩
    · rename_i elsewhere
      obtain ⟨past', before⟩ := balanced.live r' other there
      exact ⟨past', (quiet_tryRecv (Ne.symm elsewhere)).accounts before⟩
  · rw [receiver] at gone
    split at gone
    · cases gone
    · rename_i elsewhere
      exact quiet_tryRecv (Ne.symm elsewhere)

theorem record_tryRecv (balanced : Balanced l) (r : Nat) : Balanced (l.record (.tryRecv r)) := by
  have receives := l.bus.tryRecv_receives r
  generalize found : l.bus.tryRecv r = result at receives
  cases receives with
  | gone dead =>
    have bus : l.bus.use (.tryRecv r) = l.bus := by simp [Bus.use, found]
    have reports : ∀ r', l.bus.reports (.tryRecv r) r' = 0 := by simp [Bus.reports, Bus.reported, found]
    exact record_nothing balanced bus fun r' => ⟨rfl, by simp [Bus.reads, found], reports r'⟩
  | empty live unread whole =>
    have bus : l.bus.use (.tryRecv r) = l.bus := by simp [Bus.use, found]
    have reports : ∀ r', l.bus.reports (.tryRecv r) r' = 0 := by simp [Bus.reports, Bus.reported, found]
    exact record_nothing balanced bus fun r' => ⟨rfl, by simp [Bus.reads, found], reports r'⟩
  | @value rc t rest live unread whole =>
    have bus : l.bus.use (.tryRecv r) = l.bus.update r { rc with unread := rest } := by simp [Bus.use, found]
    have reads : l.bus.reads (.tryRecv r) r = [t] := by simp [Bus.reads, found]
    have reports : l.bus.reports (.tryRecv r) r = 0 := by simp [Bus.reports, Bus.reported, found]
    obtain ⟨past, sent, taken, length⟩ := balanced.live r rc live
    have accounts : (l.record (.tryRecv r)).Accounts r { rc with unread := rest } (past ++ [t]) := by
      refine ⟨?_, ?_, ?_⟩
      · rw [record_sent, sent, unread]
        simp [Bus.sends]
      · rw [record_taken, reads]
        exact taken.append (.refl [t])
      · rw [record_taken, record_counted, reads, reports]
        simp only [List.length_append, List.length_singleton]
        omega
    exact record_update balanced live bus accounts
  | @lagged rc live missed =>
    have bus : l.bus.use (.tryRecv r) = l.bus.update r { rc with missed := 0 } := by simp [Bus.use, found]
    have reads : l.bus.reads (.tryRecv r) r = [] := by simp [Bus.reads, found]
    have reports : l.bus.reports (.tryRecv r) r = rc.missed := by simp [Bus.reports, Bus.reported, found]
    obtain ⟨past, sent, taken, length⟩ := balanced.live r rc live
    have accounts : (l.record (.tryRecv r)).Accounts r { rc with missed := 0 } past := by
      refine ⟨?_, ?_, ?_⟩
      · rw [record_sent, sent]
        simp [Bus.sends]
      · rw [record_taken, reads, List.append_nil]
        exact taken
      · rw [record_taken, record_counted, reads, reports, List.append_nil]
        exact length.trans (Nat.add_assoc ..)
    exact record_update balanced live bus accounts

theorem Balanced.record (balanced : Balanced l) (u : BusUse τ) : Balanced (l.record u) := by
  cases u with
  | subscribe channel => exact record_subscribe balanced channel
  | drop r => exact record_drop balanced r
  | send capacity channel t => exact record_send balanced capacity channel t
  | tryRecv r => exact record_tryRecv balanced r

/-! ### Several uses -/

def records (l : Ledger τ) (us : List (BusUse τ)) : Ledger τ := us.foldl record l

theorem Balanced.records {us : List (BusUse τ)} (balanced : Balanced l) : Balanced (l.records us) := by
  unfold Ledger.records
  induction us generalizing l with
  | nil => exact balanced
  | cons u us ih => exact ih (balanced.record u)

theorem records_bus (l : Ledger τ) (us : List (BusUse τ)) : (l.records us).bus = us.foldl Bus.use l.bus := by
  unfold records
  induction us generalizing l with
  | nil => rfl
  | cons u us ih => exact ih (l.record u)

/-! ### Losses -/

theorem use_next (b : Bus τ) (u : BusUse τ) : b.next ≤ (b.use u).next := by
  cases u with
  | subscribe channel => exact Nat.le_succ b.next
  | drop r => exact Nat.le_refl _
  | send capacity channel t => exact Nat.le_refl _
  | tryRecv r =>
    unfold Bus.use
    dsimp only
    have receives := b.tryRecv_receives r
    generalize b.tryRecv r = result at receives
    cases receives <;> exact Nat.le_refl _

/-- New receivers have lost nothing yet. -/
theorem lost_eq (balanced : Balanced l) {n : Nat} (more : l.bus.next ≤ n) : ∑ r ∈ Finset.range n, l.counted r = l.lost := by
  symm
  apply Finset.sum_subset (Finset.range_subset_range.mpr more)
  intro r _ outside
  have above : l.bus.next ≤ r := by simpa using outside
  exact (balanced.new r above).2.2

theorem record_lost (balanced : Balanced l) (u : BusUse τ) : (l.record u).lost = l.lost + l.bus.reported u := by
  have split : (l.record u).lost = ∑ r ∈ Finset.range (l.bus.use u).next, (l.counted r + l.bus.reports u r) := rfl
  rw [split, Finset.sum_add_distrib, lost_eq balanced (use_next l.bus u)]
  congr 1
  cases u with
  | subscribe channel => simp [Bus.reports, Bus.reported]
  | drop r => simp [Bus.reports, Bus.reported]
  | send capacity channel t => simp [Bus.reports, Bus.reported]
  | tryRecv r =>
    unfold Bus.reports
    dsimp only
    rw [Finset.sum_ite_eq]
    split
    · rfl
    · rename_i outside
      have dead : l.bus.receiver r = none := by
        apply l.bus.bounded
        have above : (l.bus.use (.tryRecv r)).next ≤ r := by simpa using outside
        exact (use_next l.bus (.tryRecv r)).trans above
      simp [Bus.reported, Bus.tryRecv, dead]

/-- A use that receives nothing reports nothing. -/
theorem records_lost (balanced : Balanced l) {us : List (BusUse τ)} (quiet : ∀ u ∈ us, ∀ r, u ≠ .tryRecv r) :
    (l.records us).lost = l.lost := by
  induction us generalizing l with
  | nil => rfl
  | cons u us ih =>
    obtain ⟨here, later⟩ := List.forall_mem_cons.mp quiet
    have nothing : l.bus.reported u = 0 := by
      cases u with
      | tryRecv r => exact absurd rfl (here r)
      | _ => rfl
    have next : l.records (u :: us) = (l.record u).records us := rfl
    rw [next, ih (balanced.record u) later, record_lost balanced, nothing, Nat.add_zero]

/-- What was read stays read. -/
theorem mem_taken_record {r : Nat} {t : τ} (member : t ∈ l.taken r) (u : BusUse τ) : t ∈ (l.record u).taken r := by
  rw [record_taken]
  exact List.mem_append_left _ member

theorem mem_taken_records {r : Nat} {t : τ} (member : t ∈ l.taken r) (us : List (BusUse τ)) :
    t ∈ (l.records us).taken r := by
  induction us generalizing l with
  | nil => exact member
  | cons u us ih => exact ih (mem_taken_record member u)

end Ledger
end QuestRouter.Data.Broadcast
