import QuestRouter.Pool.Pg
import QuestRouter.Routing.Ring

/-!
# Shard ids

The ring takes the first shard with an id and the pool the last, and nothing refuses a list with an id twice. So
an id names one shard everywhere exactly if shards with the same id are the same.
-/

namespace QuestRouter

/-- The configuration as far as it is checked when it is loaded. -/
structure Config where
  shards : List ShardConfig
  pgPoolSize : Nat
  streamEnabled : Bool := false
  listenStream : Option Text.Str := none
  ingestEnabled : Bool := false
  ingestListen : Option Text.Str := none

/-- `Config::from_file`, from what the file and the environment deserialize to. -/
def Config.fromFile (deserialized : Except Text.Str Config) : Except Text.Str Config :=
  match deserialized with
  | .error e => .error e
  | .ok config =>
    if config.streamEnabled && config.listenStream.isNone then
      .error "stream.enabled requires listen.stream to be set".toList
    else if config.ingestEnabled && config.ingestListen.isNone then
      .error "ingest.enabled requires ingest.listen to be set".toList
    else .ok config

namespace Pool
open Text Routing

/-- The structures of the application that are made from the shards. -/
structure AppState where
  ring : ShardRing
  pgPool : ShardPgPool

/-- `AppState::new`, with the ring that the metadata has made from the same shards. -/
def AppState.new (hashring : List VNode → Probe → Option VNode) (config : Config) : Except Str AppState :=
  if config.shards.isEmpty then .error "at least one shard is required".toList
  else .ok ⟨.fromShards hashring config.shards, .new config.shards config.pgPoolSize⟩

/-- The application that a configuration file starts. -/
def load (hashring : List VNode → Probe → Option VNode) (deserialized : Except Str Config) :
    Except Str (Config × AppState) := do
  let config ← Config.fromFile deserialized
  let app ← AppState.new hashring config
  return (config, app)

/-- The configuration of a shard that the pool connects to. -/
def ShardPgPool.connectsTo (pool : ShardPgPool) (shardId : Nat) : Option ShardConfig := pool.shards.get shardId

/-- Writes and reads of an id go to one shard, and for each key every configured shard can be chosen. -/
def OneShardPerId (hashring : List VNode → Probe → Option VNode) (deserialized : Except Str Config) : Prop :=
  ∀ config app, load hashring deserialized = .ok (config, app) → ∀ shard ∈ config.shards,
    app.ring.shardById shard.id = app.pgPool.connectsTo shard.id ∧
      ∀ key, ∃ isExcluded, app.ring.shardByKeyFiltered key isExcluded = some shard

/-- In the loaded configuration, shards with one id are one shard. -/
def IdsIdentify (deserialized : Except Str Config) : Prop :=
  ∀ config, Config.fromFile deserialized = .ok config → ∀ s ∈ config.shards, ∀ t ∈ config.shards, s.id = t.id → s = t

/-! ### The first and the last shard with an id -/

theorem find?_argmin {α : Type} (f : α → Nat) {l : List α} {m : α} (least : l.argmin f = some m) :
    l.find? (fun x => f x == f m) = some m := by
  induction l with
  | nil => cases least
  | cons a l ih =>
    rw [List.argmin_cons] at least
    cases rest : l.argmin f with
    | none =>
      rw [rest] at least
      obtain rfl := Option.some.inj least
      simp
    | some c =>
      rw [rest] at least
      dsimp only at least
      split at least
      · rename_i smaller
        obtain rfl := Option.some.inj least
        rw [List.find?_cons_of_neg (by simpa using Nat.ne_of_gt smaller)]
        exact ih rest
      · obtain rfl := Option.some.inj least
        simp

theorem get_foldl_insert {α κ : Type} [DecidableEq κ] (key : α → κ) (entries : List α) (m : HashMap κ α) (k : κ) :
    HashMap.get ((entries.map fun a => (key a, a)).foldl (fun m entry => m.insert entry.1 entry.2) m) k =
      (entries.reverse.find? fun a => key a == k).or (m.get k) := by
  induction entries generalizing m with
  | nil => rfl
  | cons a entries ih =>
    rw [List.map_cons, List.foldl_cons, ih, List.reverse_cons, List.find?_append, Option.or_assoc]
    congr 1
    by_cases same : key a = k
    · subst same
      simp
    · rw [HashMap.get_insert_ne _ _ (Ne.symm same), List.find?_cons_of_neg (by simpa using same)]
      rfl

theorem connectsTo_new (shards : List ShardConfig) (maxPerShard id : Nat) :
    (ShardPgPool.new shards maxPerShard).connectsTo id = shards.reverse.find? (·.id == id) := by
  have folded := get_foldl_insert ShardConfig.id shards ∅ id
  rwa [show HashMap.get (∅ : HashMap Nat ShardConfig) id = none from rfl, Option.or_none] at folded

/-- What a filtered lookup returns is the first shard with its id. -/
theorem shardByKeyFiltered_first {r : ShardRing} {key : Str} {isExcluded : Nat → Bool} {shard : ShardConfig}
    (found : r.shardByKeyFiltered key isExcluded = some shard) : r.shardById shard.id = some shard := by
  have first : ∀ {id}, r.shardById id = some shard → r.shardById shard.id = some shard := by
    intro id here
    rwa [(ShardRing.shardById_mem here).2]
  unfold ShardRing.shardByKeyFiltered at found
  split at found
  · cases found
  split at found
  · rename_i primary
    obtain rfl := Option.some.inj found
    have primary := (Option.filter_eq_some_iff.mp primary).1
    unfold ShardRing.shardByKey at primary
    split at primary
    · cases primary
    · obtain ⟨vnode, _, here⟩ := Option.bind_eq_some_iff.mp primary
      exact first here
  split at found
  · rename_i probed
    obtain rfl := Option.some.inj found
    obtain ⟨attempt, _, landed⟩ := List.exists_of_findSome?_eq_some probed
    obtain ⟨vnode, _, here⟩ := Option.bind_eq_some_iff.mp landed
    split at here
    · cases here
    · exact first here
  · have kept := (List.mem_filter.mp (List.argmin_mem found)).2
    have least := find?_argmin _ found
    rw [List.find?_filter] at least
    rw [← least, ShardRing.shardById, ← List.head?_filter, ← List.head?_filter]
    congr 1
    refine List.filter_congr fun other _ => ?_
    by_cases same : other.id = shard.id
    · simpa [same] using kept.symm
    · simp [same]

theorem shardByKeyFiltered_isSome {r : ShardRing} {shard : ShardConfig} (member : shard ∈ r.shards) (key : Str)
    {isExcluded : Nat → Bool} (included : isExcluded shard.id = false) :
    ∃ found, r.shardByKeyFiltered key isExcluded = some found := by
  rw [← Option.isSome_iff_exists, ShardRing.shardByKeyFiltered,
    if_neg (by simpa using List.ne_nil_of_mem member)]
  split
  · rfl
  split
  · rfl
  · have candidate : shard ∈ r.shards.filter fun s => !isExcluded s.id := List.mem_filter.mpr ⟨member, by simp [included]⟩
    rw [Option.isSome_iff_ne_none, ne_eq, List.argmin_eq_none]
    exact List.ne_nil_of_mem candidate

/-! ### One shard for an id -/

theorem load_ok {hashring : List VNode → Probe → Option VNode} {deserialized : Except Str Config} {config : Config}
    {app : AppState} (loaded : load hashring deserialized = .ok (config, app)) :
    Config.fromFile deserialized = .ok config ∧ config.shards ≠ [] ∧
      app = ⟨.fromShards hashring config.shards, .new config.shards config.pgPoolSize⟩ := by
  unfold load at loaded
  cases read : Config.fromFile deserialized with
  | error e =>
    rw [read] at loaded
    cases loaded
  | ok c =>
    rw [read] at loaded
    simp only [bind, Except.bind, AppState.new] at loaded
    split at loaded
    · cases loaded
    · rename_i some
      split at some
      · cases some
      · rename_i nonempty
        cases some
        cases loaded
        exact ⟨rfl, by simpa using nonempty, rfl⟩

/-- Every id of the configuration names one shard exactly if shards with the same id are the same. -/
theorem oneShardPerId_iff (hashring : List VNode → Probe → Option VNode) (deserialized : Except Str Config) :
    OneShardPerId hashring deserialized ↔ IdsIdentify deserialized := by
  constructor
  · intro one config read s member t other same
    have nonempty : config.shards.isEmpty = false := by simpa using List.ne_nil_of_mem member
    have loaded : load hashring deserialized =
        .ok (config, ⟨.fromShards hashring config.shards, .new config.shards config.pgPoolSize⟩) := by
      rw [load, read]
      simp only [bind, Except.bind, AppState.new, nonempty]
      rfl
    have each := one config _ loaded
    obtain ⟨_, foundS⟩ := (each s member).2 []
    obtain ⟨_, foundT⟩ := (each t other).2 []
    have first := shardByKeyFiltered_first foundS
    rw [same, shardByKeyFiltered_first foundT] at first
    exact (Option.some.inj first).symm
  · intro unique config app loaded shard member
    obtain ⟨read, _, rfl⟩ := load_ok loaded
    have only := unique config read
    have byId : ∀ l : List ShardConfig, (∀ s ∈ l, s ∈ config.shards) → shard ∈ l →
        l.find? (·.id == shard.id) = some shard := by
      intro l inside here
      cases found : l.find? (·.id == shard.id) with
      | none => exact absurd (List.find?_eq_none.mp found shard here) (by simp)
      | some s =>
        have same : s.id = shard.id := by simpa using List.find?_some found
        rw [only s (inside s (List.mem_of_find?_eq_some found)) shard member same]
    refine ⟨?_, fun key => ⟨fun id => id != shard.id, ?_⟩⟩
    · rw [connectsTo_new, byId _ (fun s inside => List.mem_reverse.mp inside) (List.mem_reverse.mpr member)]
      exact byId config.shards (fun _ inside => inside) member
    · obtain ⟨found, chosen⟩ := @shardByKeyFiltered_isSome (.fromShards hashring config.shards) shard member key
        (fun id => id != shard.id) (by simp)
      obtain ⟨inside, included⟩ := ShardRing.shardByKeyFiltered_spec chosen
      rw [chosen, only found inside shard member (by simpa using included)]

/-- Two shards with the id 0. -/
def twiceZero : Config where
  shards := [⟨0, "a:9009".toList, "a:8812".toList, 1, 1⟩, ⟨0, "b:9009".toList, "b:8812".toList, 1, 1⟩]
  pgPoolSize := 16

/-- Writes of the id go to one of them and reads to the other. -/
theorem id_names_two_shards : ¬ OneShardPerId (fun nodes _ => nodes.head?) (.ok twiceZero) := by
  intro one
  have loaded : load (fun nodes _ => nodes.head?) (.ok twiceZero) =
      .ok (twiceZero, ⟨.fromShards (fun nodes _ => nodes.head?) twiceZero.shards, .new twiceZero.shards 16⟩) := rfl
  have same := (one _ _ loaded ⟨0, "a:9009".toList, "a:8812".toList, 1, 1⟩ (by decide +kernel)).1
  exact absurd same (by decide +kernel)

end Pool
end QuestRouter
