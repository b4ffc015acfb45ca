import QuestRouter.Protocol.IlpForward

/-!
# Delivery of accepted lines

Calls of the forwarder as one kind of step, and what every step keeps: the bytes of the lines
accepted for a shard are those handed to its stream followed by those in its buffer, as long as no
write to it failed. A flush that succeeds leaves no buffer filled.
-/

namespace QuestRouter.Protocol
open Text Routing Metadata

namespace IlpForwarder

/-! ### Upstreams after an update -/

theorem get_set (f : IlpForwarder) (id k : Nat) (u : ShardUpstream) :
    (f.set id u).upstreams.get k = if k = id then some u else f.upstreams.get k := by
  by_cases same : k = id
  · subst same
    simp [set]
  · rw [if_neg same]
    exact HashMap.get_insert_ne _ _ same

@[simp] theorem get_set_self (f : IlpForwarder) (id : Nat) (u : ShardUpstream) :
    (f.set id u).upstreams.get id = some u := by simp [set]

@[simp] theorem set_accepted (f : IlpForwarder) (id : Nat) (u : ShardUpstream) :
    (f.set id u).accepted = f.accepted := rfl

@[simp] theorem set_routed (f : IlpForwarder) (id : Nat) (u : ShardUpstream) :
    (f.set id u).routed = f.routed := rfl

@[simp] theorem accept_upstreams (f : IlpForwarder) (id : Nat) (line : Bytes) :
    (f.accept id line).upstreams = f.upstreams := rfl

@[simp] theorem accept_routed (f : IlpForwarder) (id : Nat) (line : Bytes) :
    (f.accept id line).routed = f.routed := rfl

def acceptedFor (f : IlpForwarder) (id : Nat) : Bytes :=
  f.accepted.flatMap fun entry => if entry.1 = id then entry.2 else []

theorem acceptedFor_accept (f : IlpForwarder) (id k : Nat) (line : Bytes) :
    (f.accept id line).acceptedFor k = f.acceptedFor k ++ if id = k then terminated line else [] := by
  simp [acceptedFor, accept]

theorem writeBuf_ok {out : Outside} {id : Nat} {u : ShardUpstream} (h : out.write id u.writes = none) :
    writeBuf out id u =
      (.ok (), { u with buf := [], sent := u.sent ++ u.buf, writes := u.writes + 1 }) := by
  simp [writeBuf, writeAll, h]

theorem writeBuf_error {out : Outside} {id n : Nat} {u : ShardUpstream}
    (h : out.write id u.writes = some n) :
    writeBuf out id u = (.error .write, { u with
      buf := [], sent := u.sent ++ u.buf.take n, writes := u.writes + 1, failed := true }) := by
  simp [writeBuf, writeAll, h]

/-! ### Accounting -/

/-- What is accepted for a shard has been sent or is in its buffer, if no write to it failed. -/
structure Accounted (f : IlpForwarder) : Prop where
  present : ∀ id u, f.upstreams.get id = some u → u.failed = false → u.sent ++ u.buf = f.acceptedFor id
  absent : ∀ id, f.upstreams.get id = none → f.acceptedFor id = []

theorem accounted_new : Accounted {} where
  present _ _ found := nomatch found
  absent _ _ := rfl

theorem Accounted.congr {f g : IlpForwarder} (account : Accounted f)
    (upstreams : g.upstreams = f.upstreams) (accepted : g.accepted = f.accepted) : Accounted g where
  present := by simpa [acceptedFor, upstreams, accepted] using account.present
  absent := by simpa [acceptedFor, upstreams, accepted] using account.absent

theorem Accounted.set {f : IlpForwarder} (account : Accounted f) {id : Nat} {u : ShardUpstream}
    (same : u.failed = false → u.sent ++ u.buf = f.acceptedFor id) : Accounted (f.set id u) where
  present k v found unfailed := by
    rw [get_set] at found
    split at found
    · rename_i eq
      subst eq
      obtain rfl := Option.some.inj found
      exact same unfailed
    · exact account.present k v found unfailed
  absent k missing := by
    rw [get_set] at missing
    split at missing
    · cases missing
    · exact account.absent k missing

theorem Accounted.accept {f : IlpForwarder} {id : Nat} {u : ShardUpstream} {line : Bytes}
    (account : Accounted f) 
    (same : u.failed = false → u.sent ++ u.buf = f.acceptedFor id ++ terminated line) :
    Accounted ((f.set id u).accept id line) where
  present k v found unfailed := by
    rw [accept_upstreams, get_set] at found
    rw [acceptedFor_accept]
    split at found
    · rename_i eq
      subst eq
      obtain rfl := Option.some.inj found
      rw [if_pos rfl]
      exact same unfailed
    · rename_i different
      rw [if_neg (Ne.symm different), List.append_nil]
      exact account.present k v found unfailed
  absent k missing := by
    rw [accept_upstreams, get_set] at missing
    split at missing
    · cases missing
    · rename_i different
      rw [acceptedFor_accept, if_neg (Ne.symm different), List.append_nil]
      exact account.absent k missing

def upstreamIn (f : IlpForwarder) (id : Nat) : ShardUpstream := (f.upstreams.get id).getD {}

theorem upstreamOf_ok {out : Outside} {f g : IlpForwarder} {id : Nat} {u : ShardUpstream}
    (h : upstreamOf out f id = (.ok u, g)) :
    u = upstreamIn f id ∧ g.upstreams.get id = some u ∧ g.accepted = f.accepted ∧
      g.routed = f.routed ∧ (∀ k, k ≠ id → g.upstreams.get k = f.upstreams.get k) ∧
      (f.upstreams.get id = none → out.connect f.connects = true) := by
  unfold upstreamOf at h
  split at h
  · rename_i found
    cases h
    exact ⟨by simp [upstreamIn, found], found, rfl, rfl, fun _ _ => rfl, by simp [found]⟩
  · rename_i missing
    split at h
    · rename_i connected
      cases h
      refine ⟨by simp [upstreamIn, missing], get_set_self .., rfl, rfl, fun k different => ?_,
        fun _ => connected⟩
      rw [get_set, if_neg different]
    · cases h

theorem upstreamOf_error {out : Outside} {f g : IlpForwarder} {id : Nat} {e : ForwardError}
    (h : upstreamOf out f id = (.error e, g)) :
    e = .connect ∧ g.upstreams = f.upstreams ∧ f.upstreams.get id = none ∧
      out.connect f.connects = false := by
  unfold upstreamOf at h
  split at h
  · cases h
  · rename_i missing
    split at h
    · cases h
    · rename_i refused
      cases h
      exact ⟨rfl, rfl, missing, by simpa using refused⟩

theorem upstreamOf_accounted (out : Outside) {f : IlpForwarder} (account : Accounted f) (id : Nat) :
    Accounted (upstreamOf out f id).2 := by
  unfold upstreamOf
  split
  · exact account
  · rename_i missing
    have counted : Accounted { f with connects := f.connects + 1 } := account.congr rfl rfl
    split
    · exact counted.set fun _ => (counted.absent id missing).symm
    · exact counted

theorem fill_bytes (u : ShardUpstream) (line : Bytes) :
    (fill u line).sent ++ (fill u line).buf = u.sent ++ u.buf ++ terminated line := by simp [fill]

theorem bufferLine_accounted {out : Outside} {f : IlpForwarder} (account : Accounted f) {id : Nat}
    {u : ShardUpstream} (found : f.upstreams.get id = some u) (line : Bytes) :
    Accounted (bufferLine out f id u line).2 := by
  have filled : (fill u line).failed = false →
      (fill u line).sent ++ (fill u line).buf = f.acceptedFor id ++ terminated line := by
    intro unfailed
    rw [fill_bytes, account.present id u found unfailed]
  unfold bufferLine
  split
  · cases outcome : out.write id (fill u line).writes with
    | none =>
      rw [writeBuf_ok outcome]
      exact account.accept fun unfailed => by simpa using filled unfailed
    | some n =>
      rw [writeBuf_error outcome]
      exact account.set fun unfailed => nomatch unfailed
  · exact account.accept filled

theorem routeAndBuffer_accounted {out : Outside} {f : IlpForwarder} (account : Accounted f)
    (line : Bytes) : Accounted (routeAndBuffer out f line).2 := by
  unfold routeAndBuffer
  split
  · exact account
  dsimp only
  split
  · exact account.congr rfl rfl
  · rename_i shard _
    have counted : Accounted { f with routed := f.routed + 1 } := account.congr rfl rfl
    have connected := upstreamOf_accounted out counted shard.id
    cases step : upstreamOf out { f with routed := f.routed + 1 } shard.id with
    | mk result f' =>
      rw [step] at connected
      cases result with
      | error e => exact connected
      | ok u => exact bufferLine_accounted connected (upstreamOf_ok step).2.1 line

theorem flushEach_accounted {out : Outside} {f : IlpForwarder} (account : Accounted f) (ids : List Nat) :
    Accounted (flushEach out ids f).2 := by
  induction ids generalizing f with
  | nil => exact account
  | cons id ids ih =>
    rw [flushEach]
    split
    · exact ih account
    · rename_i u found
      split
      · exact ih account
      · cases outcome : out.write id u.writes with
        | none =>
          rw [writeBuf_ok outcome]
          exact ih (account.set fun unfailed => by simpa using account.present id u found unfailed)
        | some n =>
          rw [writeBuf_error outcome]
          exact account.set fun unfailed => nomatch unfailed

theorem flush_accounted {out : Outside} {f : IlpForwarder} (account : Accounted f) :
    Accounted (flush out f).2 := by
  have counted : Accounted { f with flushes := f.flushes + 1 } := account.congr rfl rfl
  exact flushEach_accounted counted _

/-! ### What a flush leaves -/

/-- The upstreams that a flush does not reach: those after the first whose write fails. -/
def unreached (out : Outside) (f : IlpForwarder) : List Nat → List Nat
  | [] => []
  | id :: ids =>
    match f.upstreams.get id with
    | none => unreached out f ids
    | some u => if !u.buf.isEmpty && (out.write id u.writes).isSome then ids else unreached out f ids

theorem unreached_subset {out : Outside} {f : IlpForwarder} {ids : List Nat} {id : Nat}
    (h : id ∈ unreached out f ids) : id ∈ ids := by
  fun_induction unreached out f ids with
  | case1 => cases h
  | case2 _ ids _ ih => exact List.mem_cons_of_mem _ (ih h)
  | case3 _ ids _ _ _ => exact List.mem_cons_of_mem _ h
  | case4 _ ids _ _ _ ih => exact List.mem_cons_of_mem _ (ih h)

theorem unreached_congr {out : Outside} {f g : IlpForwarder} {ids : List Nat}
    (same : ∀ id ∈ ids, f.upstreams.get id = g.upstreams.get id) :
    unreached out f ids = unreached out g ids := by
  induction ids with
  | nil => rfl
  | cons id ids ih =>
    have tail := ih fun k member => same k (List.mem_cons_of_mem _ member)
    simp only [unreached, same id List.mem_cons_self, tail]

theorem flushEach_spec (out : Outside) (f : IlpForwarder) {ids : List Nat} (nodup : ids.Nodup) (id : Nat) :
    (id ∉ ids ∨ id ∈ unreached out f ids →
      (flushEach out ids f).2.upstreams.get id = f.upstreams.get id) ∧
    (id ∈ ids → id ∉ unreached out f ids → ∀ u, (flushEach out ids f).2.upstreams.get id = some u →
      u.failed = false → u.buf = []) := by
  induction ids generalizing f with
  | nil => exact ⟨fun _ => rfl, nofun⟩
  | cons first ids ih =>
    obtain ⟨fresh, nodup⟩ := List.nodup_cons.mp nodup
    -- After the first upstream the loop goes on from `g`, which differs from `f` there only.
    have goOn : ∀ g : IlpForwarder, (∀ k, k ≠ first → g.upstreams.get k = f.upstreams.get k) →
        (∀ u, g.upstreams.get first = some u → u.failed = false → u.buf = []) →
        (id ∉ first :: ids ∨ id ∈ unreached out f ids →
          (flushEach out ids g).2.upstreams.get id = f.upstreams.get id) ∧
        (id ∈ first :: ids → id ∉ unreached out f ids →
          ∀ u, (flushEach out ids g).2.upstreams.get id = some u → u.failed = false → u.buf = []) := by
      intro g others emptied
      have same : unreached out g ids = unreached out f ids :=
        unreached_congr fun k member => others k fun eq => fresh (eq ▸ member)
      obtain ⟨kept, cleared⟩ := ih g nodup
      rw [same] at kept cleared
      refine ⟨fun h => ?_, fun member reached u found => ?_⟩
      · have different : id ≠ first := by
          rintro rfl
          rcases h with absent | later
          · exact absent List.mem_cons_self
          · exact fresh (unreached_subset later)
        rw [kept (h.imp_left fun absent member => absent (List.mem_cons_of_mem _ member)),
          others id different]
      · rcases List.mem_cons.mp member with rfl | later
        · rw [kept (.inl fresh)] at found
          exact emptied u found
        · exact cleared later reached u found
    rw [flushEach, unreached]
    cases found : f.upstreams.get first with
    | none => exact goOn f (fun _ _ => rfl) fun u other => nomatch found ▸ other
    | some u =>
      dsimp only
      by_cases empty : u.buf.isEmpty = true
      · rw [if_pos empty, if_neg (by simp [empty])]
        refine goOn f (fun _ _ => rfl) fun v other _ => ?_
        obtain rfl := Option.some.inj (found.symm.trans other)
        exact List.isEmpty_iff.mp empty
      · rw [if_neg empty]
        cases outcome : out.write first u.writes with
        | none =>
          rw [writeBuf_ok outcome, if_neg (by simp)]
          refine goOn _ (fun k different => ?_) fun v other _ => ?_
          · rw [get_set, if_neg different]
          · rw [get_set_self] at other
            rw [← Option.some.inj other]
        | some n =>
          rw [writeBuf_error outcome, if_pos (by simp [empty])]
          refine ⟨fun h => ?_, fun member reached v other unfailed => ?_⟩
          · have different : id ≠ first := by
              rintro rfl
              exact h.elim (· List.mem_cons_self) fresh
            rw [get_set, if_neg different]
          · rcases List.mem_cons.mp member with rfl | later
            · rw [get_set_self] at other
              rw [← Option.some.inj other] at unfailed
              cases unfailed
            · exact (reached later).elim

theorem flushEach_ok {out : Outside} {f : IlpForwarder} {ids : List Nat} (nodup : ids.Nodup)
    (ok : (flushEach out ids f).1 = .ok ()) : unreached out f ids = [] := by
  induction ids generalizing f with
  | nil => rfl
  | cons first ids ih =>
    obtain ⟨fresh, nodup⟩ := List.nodup_cons.mp nodup
    rw [flushEach] at ok
    rw [unreached]
    cases found : f.upstreams.get first with
    | none =>
      simp only [found] at ok
      exact ih nodup ok
    | some u =>
      simp only [found] at ok
      dsimp only
      split at ok
      · rename_i empty
        rw [if_neg (by simp [empty])]
        exact ih nodup ok
      · cases outcome : out.write first u.writes with
        | none =>
          rw [writeBuf_ok outcome] at ok
          rw [if_neg (by simp), ← ih nodup ok]
          apply unreached_congr
          intro k member
          have different : k ≠ first := fun eq => fresh (eq ▸ member)
          rw [get_set, if_neg different]
        | some n =>
          rw [writeBuf_error outcome] at ok
          cases ok

def NoneFailed (f : IlpForwarder) : Prop := ∀ id u, f.upstreams.get id = some u → u.failed = false

/-- No upstream that works has a filled buffer. -/
def Settled (f : IlpForwarder) : Prop :=
  ∀ id u, f.upstreams.get id = some u → u.failed = false → u.buf = []

theorem NoneFailed.set {f : IlpForwarder} (none : NoneFailed f) {u : ShardUpstream} (id : Nat)
    (unfailed : u.failed = false) : NoneFailed (f.set id u) := by
  intro k v found
  rw [get_set] at found
  split at found
  · rwa [← Option.some.inj found]
  · exact none k v found

theorem flushEach_noneFailed {out : Outside} {f : IlpForwarder} (none : NoneFailed f) {ids : List Nat}
    (ok : (flushEach out ids f).1 = .ok ()) : NoneFailed (flushEach out ids f).2 := by
  induction ids generalizing f with
  | nil => exact none
  | cons first ids ih =>
    rw [flushEach] at ok ⊢
    cases found : f.upstreams.get first with
    | none =>
      simp only [found] at ok
      exact ih none ok
    | some u =>
      simp only [found] at ok
      dsimp only
      by_cases empty : u.buf.isEmpty = true
      · rw [if_pos empty] at ok ⊢
        exact ih none ok
      · rw [if_neg empty] at ok ⊢
        cases outcome : out.write first u.writes with
        | none =>
          rw [writeBuf_ok outcome] at ok ⊢
          exact ih (none.set first (none first u found)) ok
        | some n =>
          rw [writeBuf_error outcome] at ok
          cases ok

theorem mem_keys {f : IlpForwarder} {id : Nat} {u : ShardUpstream} (h : f.upstreams.get id = some u) :
    id ∈ f.upstreams.keys := by
  have present : (AList.lookup id f.upstreams).isSome = true := by
    rw [show AList.lookup id f.upstreams = some u from h]
    rfl
  exact AList.mem_keys.mp (AList.lookup_isSome.mp present)

def nextOrder (out : Outside) (f : IlpForwarder) : List Nat := out.order f.flushes f.upstreams.keys

theorem nextOrder_nodup (out : Outside) (f : IlpForwarder) : (nextOrder out f).Nodup :=
  (out.order_perm f.flushes f.upstreams.keys).nodup_iff.mpr (AList.keys_nodup f.upstreams)

theorem mem_nextOrder {out : Outside} {f : IlpForwarder} {id : Nat} {u : ShardUpstream}
    (h : f.upstreams.get id = some u) : id ∈ nextOrder out f :=
  (out.order_perm f.flushes f.upstreams.keys).mem_iff.mpr (mem_keys h)

theorem unreached_counted (out : Outside) (f : IlpForwarder) (ids : List Nat) :
    unreached out { f with flushes := f.flushes + 1 } ids = unreached out f ids :=
  unreached_congr fun _ _ => rfl

/-- A flush settles exactly if no upstream it does not reach has a filled buffer and works. -/
theorem flush_settled_iff (out : Outside) (f : IlpForwarder) :
    Settled (flush out f).2 ↔ ∀ id ∈ unreached out f (nextOrder out f), ∀ u,
      f.upstreams.get id = some u → u.failed = false → u.buf = [] := by
  have spec := flushEach_spec out { f with flushes := f.flushes + 1 } (nextOrder_nodup out f)
  rw [unreached_counted] at spec
  constructor
  · intro settled id behind u found unfailed
    exact settled id u (((spec id).1 (.inr behind)).trans found) unfailed
  · intro quiet id u found unfailed
    by_cases behind : id ∈ unreached out f (nextOrder out f)
    · have before := (spec id).1 (.inr behind)
      exact quiet id behind u (before.symm.trans found) unfailed
    · by_cases visited : id ∈ nextOrder out f
      · exact (spec id).2 visited behind u found unfailed
      · have before := (spec id).1 (.inl visited)
        exact (visited (mem_nextOrder (before.symm.trans found))).elim

theorem flush_ok {out : Outside} {f : IlpForwarder} (ok : (flush out f).1 = .ok ()) :
    unreached out f (nextOrder out f) = [] := by
  have reached := flushEach_ok (nextOrder_nodup out f) ok
  rwa [unreached_counted] at reached

/-! ### What routing a line can do -/

def nextShard (out : Outside) (f : IlpForwarder) (line : Bytes) : Except RoutingError ShardConfig :=
  shardOfLine out.defaultShardKey (out.snapshot f.routed) line

def EarlyWriteFails (out : Outside) (f : IlpForwarder) (id : Nat) (line : Bytes) : Prop :=
  (fill (upstreamIn f id) line).buf.length ≥ shardBufFlushBytes ∧
    (out.write id (upstreamIn f id).writes).isSome = true

/-- The outcomes of `routeAndBuffer`. -/
inductive LineStep (out : Outside) (f : IlpForwarder) (line : Bytes) :
    Except ForwardError Unit → IlpForwarder → Prop
  | blank (h : isBlank line = true) : LineStep out f line (.ok ()) f
  | unrouted {g : IlpForwarder} {e : RoutingError} (text : isBlank line = false)
      (target : nextShard out f line = .error e) (same : g.upstreams = f.upstreams) :
      LineStep out f line (.error (.routing e)) g
  | refused {g : IlpForwarder} {shard : ShardConfig} (text : isBlank line = false)
      (target : nextShard out f line = .ok shard) (absent : f.upstreams.get shard.id = none)
      (refused : out.connect f.connects = false) (same : g.upstreams = f.upstreams) :
      LineStep out f line (.error .connect) g
  | broken {g : IlpForwarder} {shard : ShardConfig} {u : ShardUpstream} (text : isBlank line = false)
      (target : nextShard out f line = .ok shard)
      (connected : f.upstreams.get shard.id = none → out.connect f.connects = true)
      (fails : EarlyWriteFails out f shard.id line) (failed : u.failed = true)
      (upstreams : ∀ k, g.upstreams.get k = if k = shard.id then some u else f.upstreams.get k) :
      LineStep out f line (.error .write) g
  | buffered {g : IlpForwarder} {shard : ShardConfig} {u : ShardUpstream} (text : isBlank line = false)
      (target : nextShard out f line = .ok shard)
      (connected : f.upstreams.get shard.id = none → out.connect f.connects = true)
      (fits : ¬ EarlyWriteFails out f shard.id line)
      (unfailed : u.failed = (upstreamIn f shard.id).failed)
      (upstreams : ∀ k, g.upstreams.get k = if k = shard.id then some u else f.upstreams.get k)
      (accepted : g.accepted = f.accepted ++ [(shard.id, terminated line)])
      (routed : g.routed = f.routed + 1) : LineStep out f line (.ok ()) g

theorem bufferLine_step {out : Outside} {f g : IlpForwarder} {line : Bytes} {shard : ShardConfig}
    (text : isBlank line = false) (target : nextShard out f line = .ok shard)
    (connected : f.upstreams.get shard.id = none → out.connect f.connects = true)
    (others : ∀ k, k ≠ shard.id → g.upstreams.get k = f.upstreams.get k)
    (accepted : g.accepted = f.accepted) (routed : g.routed = f.routed + 1) :
    LineStep out f line (bufferLine out g shard.id (upstreamIn f shard.id) line).1
      (bufferLine out g shard.id (upstreamIn f shard.id) line).2 := by
  have upstreams : ∀ u k, (g.set shard.id u).upstreams.get k =
      if k = shard.id then some u else f.upstreams.get k := by
    intro u k
    rw [get_set]
    split
    · rfl
    · rename_i different
      exact others k different
  have kept : ∀ u : ShardUpstream, u.failed = (upstreamIn f shard.id).failed →
      ¬ EarlyWriteFails out f shard.id line →
      LineStep out f line (.ok ()) ((g.set shard.id u).accept shard.id line) := fun u unfailed fits =>
    .buffered text target connected fits unfailed (upstreams u) (by simp [accept, accepted]) routed
  unfold bufferLine
  split
  · rename_i large
    cases outcome : out.write shard.id (fill (upstreamIn f shard.id) line).writes with
    | none =>
      rw [writeBuf_ok outcome]
      refine kept _ rfl ?_
      rintro ⟨_, fails⟩
      rw [show out.write shard.id (upstreamIn f shard.id).writes = none from outcome] at fails
      cases fails
    | some n =>
      rw [writeBuf_error outcome]
      refine .broken text target connected ⟨large, ?_⟩ rfl (upstreams _)
      rw [show out.write shard.id (upstreamIn f shard.id).writes = some n from outcome]
      rfl
  · rename_i small
    exact kept _ rfl fun fails => small fails.1

theorem routeAndBuffer_step (out : Outside) (f : IlpForwarder) (line : Bytes) :
    LineStep out f line (routeAndBuffer out f line).1 (routeAndBuffer out f line).2 := by
  unfold routeAndBuffer
  split
  · rename_i blank
    exact .blank blank
  rename_i text
  have text : isBlank line = false := by simpa using text
  dsimp only
  split
  · rename_i e target
    exact .unrouted text target rfl
  · rename_i shard target
    rcases step : upstreamOf out { f with routed := f.routed + 1 } shard.id with ⟨e | u, g⟩
    · obtain ⟨rfl, same, absent, refused⟩ := upstreamOf_error step
      exact .refused text target absent refused same
    · obtain ⟨rfl, _, accepted, routed, others, connected⟩ := upstreamOf_ok step
      exact bufferLine_step text target connected others accepted routed

theorem lineStep_of {out : Outside} {f g : IlpForwarder} {line : Bytes} {r : Except ForwardError Unit}
    (h : routeAndBuffer out f line = (r, g)) : LineStep out f line r g := by
  have step := routeAndBuffer_step out f line
  rwa [h] at step

/-! ### Runs of calls -/

inductive Call where
  | line (bytes : Bytes)
  | flush

def perform (out : Outside) (f : IlpForwarder) : Call → Except ForwardError Unit × IlpForwarder
  | .line bytes => routeAndBuffer out f bytes
  | .flush => flush out f

def performAll (out : Outside) : List Call → IlpForwarder → Except ForwardError Unit × IlpForwarder
  | [], f => (.ok (), f)
  | call :: calls, f =>
    match perform out f call with
    | (.error e, f) => (.error e, f)
    | (.ok (), f) => performAll out calls f

theorem performAll_ok {out : Outside} {f g : IlpForwarder} {call : Call} (calls : List Call)
    (h : perform out f call = (.ok (), g)) : performAll out (call :: calls) f = performAll out calls g := by
  rw [performAll, h]

theorem performAll_error {out : Outside} {f g : IlpForwarder} {call : Call} {e : ForwardError}
    (calls : List Call) (h : perform out f call = (.error e, g)) :
    performAll out (call :: calls) f = (.error e, g) := by
  rw [performAll, h]

theorem performAll_append (out : Outside) (first second : List Call) (f : IlpForwarder) :
    performAll out (first ++ second) f =
      match performAll out first f with
      | (.error e, f) => (.error e, f)
      | (.ok (), f) => performAll out second f := by
  induction first generalizing f with
  | nil => rfl
  | cons call calls ih =>
    rw [List.cons_append, performAll, performAll]
    rcases perform out f call with ⟨_ | _, g⟩
    · rfl
    · exact ih g

theorem perform_accounted (out : Outside) {f : IlpForwarder} (account : Accounted f) (call : Call) :
    Accounted (perform out f call).2 := by
  cases call with
  | line bytes => exact routeAndBuffer_accounted account bytes
  | flush => exact flush_accounted account

theorem performAll_accounted {out : Outside} {f : IlpForwarder} (account : Accounted f)
    (calls : List Call) : Accounted (performAll out calls f).2 := by
  induction calls generalizing f with
  | nil => exact account
  | cons call calls ih =>
    have step := perform_accounted out account call
    rw [performAll]
    rcases outcome : perform out f call with ⟨_ | _, g⟩
    · rwa [outcome] at step
    · rw [outcome] at step
      exact ih step

theorem performAll_settled {out : Outside} {f : IlpForwarder} {calls : List Call}
    (ok : (performAll out (calls ++ [.flush]) f).1 = .ok ()) :
    Settled (performAll out (calls ++ [.flush]) f).2 := by
  rw [performAll_append] at ok ⊢
  rcases before : performAll out calls f with ⟨_ | _, g⟩
  · rw [before] at ok
    cases ok
  · rw [before] at ok
    simp only [performAll, perform] at ok ⊢
    rcases step : flush out g with ⟨_ | _, h⟩
    · rw [step] at ok
      cases ok
    · have reached := flush_ok (congrArg Prod.fst step)
      have settled := (flush_settled_iff out g).mpr (by rw [reached]; exact nofun)
      rwa [step] at settled

theorem forwardBatch_eq (out : Outside) (lines : List Str) (f : IlpForwarder) :
    forwardBatch out lines f =
      performAll out (lines.map (fun line => .line (asBytes line)) ++ [.flush]) f := by
  induction lines generalizing f with
  | nil =>
    simp only [forwardBatch, List.map_nil, List.nil_append, performAll, perform]
    rcases flush out f with ⟨_ | _, g⟩ <;> rfl
  | cons line lines ih =>
    rw [forwardBatch, List.map_cons, List.cons_append, performAll]
    simp only [perform]
    rcases routeAndBuffer out f (asBytes line) with ⟨_ | _, g⟩
    · rfl
    · exact ih g

/-! ### Runs without an error -/

def goesTo (out : Outside) (n : Nat) (line : Bytes) (id : Nat) : Bool :=
  match shardOfLine out.defaultShardKey (out.snapshot n) line with
  | .ok shard => shard.id == id
  | .error _ => false

def routedTo (out : Outside) (id : Nat) : Nat → List Bytes → List Bytes
  | _, [] => []
  | n, line :: lines =>
    if goesTo out n line id then line :: routedTo out id (n + 1) lines else routedTo out id (n + 1) lines

def textLines (calls : List Call) : List Bytes :=
  calls.filterMap fun
    | .line bytes => if isBlank bytes then none else some bytes
    | .flush => none

theorem mem_routedTo {out : Outside} {id n : Nat} {lines : List Bytes} {line : Bytes}
    (h : line ∈ routedTo out id n lines) : line ∈ lines := by
  induction lines generalizing n with
  | nil => exact h
  | cons first lines ih =>
    rw [routedTo] at h
    split at h
    · rcases List.mem_cons.mp h with rfl | later
      · exact List.mem_cons_self
      · exact List.mem_cons_of_mem _ (ih later)
    · exact List.mem_cons_of_mem _ (ih h)

theorem flushEach_frame (out : Outside) (ids : List Nat) (f : IlpForwarder) :
    (flushEach out ids f).2.accepted = f.accepted ∧ (flushEach out ids f).2.routed = f.routed := by
  induction ids generalizing f with
  | nil => exact ⟨rfl, rfl⟩
  | cons id ids ih =>
    rw [flushEach]
    split
    · exact ih f
    · rename_i u _
      split
      · exact ih f
      · cases outcome : out.write id u.writes with
        | none =>
          rw [writeBuf_ok outcome]
          exact ih (f.set id _)
        | some n =>
          rw [writeBuf_error outcome]
          exact ⟨rfl, rfl⟩

theorem flush_frame {out : Outside} {f g : IlpForwarder} {r : Except ForwardError Unit}
    (h : flush out f = (r, g)) : g.accepted = f.accepted ∧ g.routed = f.routed := by
  have frame := flushEach_frame out (nextOrder out f) { f with flushes := f.flushes + 1 }
  rwa [show flushEach out (nextOrder out f) _ = (r, g) from h] at frame

theorem perform_noneFailed {out : Outside} {f g : IlpForwarder} {call : Call} (none : NoneFailed f)
    (h : perform out f call = (.ok (), g)) : NoneFailed g := by
  cases call with
  | flush =>
    have each : flushEach out (nextOrder out f) { f with flushes := f.flushes + 1 } = (.ok (), g) := h
    have counted : NoneFailed { f with flushes := f.flushes + 1 } := none
    have kept := flushEach_noneFailed counted (congrArg Prod.fst each)
    rwa [each] at kept
  | line bytes =>
    cases lineStep_of h with
    | blank => exact none
    | @buffered _ shard u _ _ _ _ unfailed upstreams =>
      intro k v found
      rw [upstreams] at found
      split at found
      · rw [← Option.some.inj found, unfailed, upstreamIn]
        cases before : f.upstreams.get shard.id with
        | none => rfl
        | some w => exact none _ w before
      · exact none k v found

theorem perform_accepted {out : Outside} {f g : IlpForwarder} {call : Call} (id : Nat)
    (h : perform out f call = (.ok (), g)) :
    g.acceptedFor id = f.acceptedFor id ++ (routedTo out id f.routed (textLines [call])).flatMap terminated ∧
      g.routed = f.routed + (textLines [call]).length := by
  cases call with
  | flush =>
    obtain ⟨accepted, routed⟩ := flush_frame h
    exact ⟨by simp [acceptedFor, accepted, textLines, routedTo], routed⟩
  | line bytes =>
    cases lineStep_of h with
    | blank blank => simp [textLines, blank, routedTo]
    | @buffered _ shard u text target _ _ _ _ accepted routed =>
      have only : textLines [.line bytes] = [bytes] := by simp [textLines, text]
      rw [only]
      refine ⟨?_, routed⟩
      have goes : goesTo out f.routed bytes id = (shard.id == id) := by
        unfold goesTo
        rw [show shardOfLine out.defaultShardKey (out.snapshot f.routed) bytes = .ok shard from target]
      rw [routedTo, goes]
      by_cases same : shard.id = id
      · simp [acceptedFor, accepted, routedTo, same]
      · simp [acceptedFor, accepted, routedTo, same]

theorem routedTo_append (out : Outside) (id n : Nat) (first second : List Bytes) :
    routedTo out id n (first ++ second) =
      routedTo out id n first ++ routedTo out id (n + first.length) second := by
  induction first generalizing n with
  | nil => rfl
  | cons line lines ih =>
    simp only [List.cons_append, routedTo, ih, List.length_cons, Nat.add_right_comm n 1, Nat.add_assoc]
    split <;> rfl

/-- A run without an error accepts, for every shard, the lines routed to it, and no write fails. -/
theorem performAll_delivers {out : Outside} {f : IlpForwarder} {calls : List Call} (none : NoneFailed f)
    (ok : (performAll out calls f).1 = .ok ()) (id : Nat) :
    NoneFailed (performAll out calls f).2 ∧
      (performAll out calls f).2.acceptedFor id =
        f.acceptedFor id ++ (routedTo out id f.routed (textLines calls)).flatMap terminated := by
  induction calls generalizing f with
  | nil => exact ⟨none, by simp [performAll, textLines, routedTo]⟩
  | cons call calls ih =>
    rcases step : perform out f call with ⟨_ | _, g⟩
    · rw [performAll_error calls step] at ok
      cases ok
    · rw [performAll_ok calls step] at ok ⊢
      obtain ⟨unfailed, accepted⟩ := ih (perform_noneFailed none step) ok
      obtain ⟨first, routed⟩ := perform_accepted id step
      refine ⟨unfailed, ?_⟩
      have split : textLines (call :: calls) = textLines [call] ++ textLines calls := by
        rw [← List.singleton_append, textLines, List.filterMap_append]
        rfl
      rw [accepted, first, routed, split, routedTo_append, List.flatMap_append, List.append_assoc]

def sentTo (f : IlpForwarder) (id : Nat) : Bytes := (upstreamIn f id).sent

theorem sentTo_settled {f : IlpForwarder} (account : Accounted f) (settled : Settled f) (id : Nat)
    (works : (upstreamIn f id).failed = false) : f.sentTo id = f.acceptedFor id := by
  unfold sentTo upstreamIn at *
  cases found : f.upstreams.get id with
  | none => simp [account.absent id found]
  | some u =>
    simp only [found, Option.getD_some] at works ⊢
    rw [← account.present id u found works, settled id u found works, List.append_nil]

end IlpForwarder
end QuestRouter.Protocol
