import Mathlib.Logic.Equiv.List
import QuestRouter.Data.Files
import QuestRouter.Ingest.Checkpoint
import QuestRouter.Text.Utf8

/-!
# Checkpoint file

Each change of the entries is written to a temporary file, which is then renamed. The temporary name is the
configured one with another extension, so the file is replaced as a whole exactly if the two differ.
-/

namespace QuestRouter.Ingest
open Text Data

/-! ### Paths -/

/-- The components of a path. At its end `/` and `.` do not count. -/
def components (path : Str) : List Str :=
  ((path.splitOn '/').reverse.dropWhile fun part => part.isEmpty || part == ['.']).reverse

def fileName (path : Str) : Option Str := (components path).getLast?.filter (· != "..".toList)

/-- The name without what follows its last dot, unless that is its first character. -/
def fileStem (name : Str) : Str :=
  let before := name.take (name.length - (lastSegment '.' name).length - 1)
  if '.' ∉ name || before.isEmpty then name else before

def withExtension (path extension : Str) : Str :=
  match fileName path with
  | none => path
  | some name => ['/'].intercalate ((components path).dropLast ++ [fileStem name ++ '.' :: extension])

def tmpPath (path : Str) : Str := withExtension path "tmp".toList

example : tmpPath "./ingest.checkpoint.json".toList = "./ingest.checkpoint.tmp".toList ∧
    tmpPath "state/.tmp".toList = "state/.tmp.tmp".toList ∧ tmpPath "a/../".toList = "a/../".toList ∧
    tmpPath "state/ck.tmp".toList = "state/ck.tmp".toList := by decide +kernel

/-! ### Loading and persisting -/

/-- The JSON of a map of entries, when it is written for the n-th time, and its parser. -/
structure Json where
  toStringPretty : Nat → HashMap Str ProcessedMeta → Str
  fromStr : Str → Option (HashMap Str ProcessedMeta)
  opens : ∀ n entries, (toStringPretty n entries).head? = some '{'
  reads : ∀ n entries, ∃ parsed, fromStr (toStringPretty n entries) = some parsed ∧
    ∀ object, parsed.get object = entries.get object

inductive CheckpointError where
  | io
  | json
  deriving DecidableEq, Repr

namespace CheckpointStore

variable (json : Json) (path : Str)

def load (files : Files Str UInt8) : Except CheckpointError CheckpointStore :=
  match files path with
  | none => .ok {}
  | some bytes =>
    match fromUtf8 bytes with
    | none => .error .io
    | some data =>
      if (trim data).isEmpty then .ok {}
      else
        match json.fromStr data with
        | none => .error .json
        | some entries => .ok { entries }

/-- What `persist` does to the files. -/
def persist (store : CheckpointStore) : List (Files.Operation Str UInt8) :=
  Files.replacing (tmpPath path) path (asBytes (json.toStringPretty store.writes store.entries))

/-- A path that ends in `..`, in the root or in nothing names no file. -/
def NamesFile (path : Str) : Prop := (fileName path).isSome = true

instance (path : Str) : Decidable (NamesFile path) := inferInstanceAs (Decidable (_ = true))

/-- The arguments of a `mark_processed`. -/
structure Mark where
  bucket : Str
  key : Str
  etag : Option Str
  rows : Nat

/-- The entries in memory, which are the same whether they can be written or not. -/
def marked (store : CheckpointStore) (mark : Mark) : CheckpointStore :=
  (store.markProcessed (fun _ => true) mark.bucket mark.key mark.etag mark.rows).2

/-- A process with its checkpoint, and the entries as of the last mark that succeeded. -/
structure Process where
  files : Files Str UInt8
  store : CheckpointStore
  completed : CheckpointStore

inductive Reached : Process → Prop
  | loaded {files : Files Str UInt8} {store : CheckpointStore} (ok : load json path files = .ok store) :
      Reached ⟨files, store, store⟩
  | succeeded {p : Process} (before : Reached p) (mark : Mark) {files : Files Str UInt8}
      (done : Files.AllDone NamesFile (persist json path (marked p.store mark)) p.files files) :
      Reached ⟨files, marked p.store mark, marked p.store mark⟩
  | failed {p : Process} (before : Reached p) (mark : Mark) {files : Files Str UInt8}
      (cut : Files.CutShort NamesFile (persist json path (marked p.store mark)) p.files files) :
      Reached ⟨files, marked p.store mark, p.completed⟩

/-- The process stops before its next mark, in it, or when the file is renamed. -/
inductive Crash (p : Process) : Option Mark → Files Str UInt8 → Prop
  | between : Crash p none p.files
  | inside (mark : Mark) {files : Files Str UInt8}
      (cut : Files.CutShort NamesFile (persist json path (marked p.store mark)) p.files files) :
      Crash p (some mark) files
  | renamed (mark : Mark) {files : Files Str UInt8}
      (done : Files.AllDone NamesFile (persist json path (marked p.store mark)) p.files files) :
      Crash p (some mark) files

def SameEntries (store other : CheckpointStore) : Prop :=
  ∀ object, store.entries.get object = other.entries.get object

/-- After a crash the file loads, with the entries as of the last mark that succeeded or of the one in
progress. -/
def CrashSafe : Prop :=
  ∀ p, Reached json path p → ∀ inProgress files, Crash json path p inProgress files →
    ∃ store, load json path files = .ok store ∧
      (SameEntries store p.completed ∨ ∃ mark, inProgress = some mark ∧ SameEntries store (marked p.store mark))

/-- The temporary file is another file, or the path cannot be written at all. -/
def WrittenAside : Prop := tmpPath path ≠ path ∨ ¬ NamesFile path

variable {json path}

theorem load_congr {files files' : Files Str UInt8} (same : files' path = files path) :
    load json path files' = load json path files := by
  rw [load, load, same]

theorem trim_visible {c : Char} {s : Str} (visible : isWhitespace c = false) : trim (c :: s) ≠ [] := by
  have kept : trimStart (c :: s) = c :: s := List.dropWhile_cons_of_neg (by simp [visible])
  rw [trim, kept, ne_eq, List.reverse_eq_nil_iff, trimStart, List.dropWhile_eq_nil_iff]
  intro all
  rw [all c (by simp)] at visible
  cases visible

theorem load_persisted (store : CheckpointStore) {files : Files Str UInt8}
    (written : files path = some (asBytes (json.toStringPretty store.writes store.entries))) :
    ∃ loaded, load json path files = .ok loaded ∧ SameEntries loaded store := by
  obtain ⟨entries, parsed, same⟩ := json.reads store.writes store.entries
  obtain ⟨rest, text⟩ := List.head?_eq_some_iff.mp (json.opens store.writes store.entries)
  have visible : (trim (json.toStringPretty store.writes store.entries)).isEmpty = false := by
    rw [text]
    simpa using trim_visible (s := rest) (show isWhitespace '{' = false by decide)
  refine ⟨{ entries }, ?_, same⟩
  simp only [load, written, fromUtf8_asBytes, visible, parsed, Bool.false_eq_true, if_false]

theorem load_empty {files : Files Str UInt8} (empty : files path = some []) : load json path files = .ok {} := by
  have decoded : fromUtf8 [] = some [] := fromUtf8_asBytes []
  simp only [load, empty, decoded]
  rfl

theorem persist_cut (aside : WrittenAside path) {store : CheckpointStore} {files left : Files Str UInt8}
    (cut : Files.CutShort NamesFile (persist json path store) files left) : left path = files path := by
  by_cases apart : tmpPath path = path
  · have unnamed : ¬ NamesFile (tmpPath path) := by
      rw [apart]
      exact aside.resolve_left (not_not.mpr apart)
    rw [(Files.replacing_unnamed unnamed).2 cut]
  · exact Files.replacing_cut apart cut

theorem persist_done {store : CheckpointStore} {files left : Files Str UInt8}
    (done : Files.AllDone NamesFile (persist json path store) files left) :
    ∃ loaded, load json path left = .ok loaded ∧ SameEntries loaded store :=
  load_persisted store (Files.replacing_done done)

/-- What the file holds is what the last mark that succeeded had it hold. -/
theorem reached_loads (aside : WrittenAside path) {p : Process} (reached : Reached json path p) :
    ∃ store, load json path p.files = .ok store ∧ SameEntries store p.completed := by
  induction reached with
  | loaded ok => exact ⟨_, ok, fun _ => rfl⟩
  | succeeded _ mark done => exact persist_done done
  | failed _ mark cut ih =>
    obtain ⟨store, loads, same⟩ := ih
    exact ⟨store, (load_congr (persist_cut aside cut)).trans loads, same⟩

theorem marked_get (store : CheckpointStore) (mark : Mark) :
    (marked store mark).entries.get (encode mark.bucket mark.key) = some ⟨mark.etag, mark.rows⟩ := by
  rw [marked, markProcessed_get, if_pos rfl]

theorem persist_in_place (inPlace : tmpPath path = path) (named : NamesFile path) (store : CheckpointStore)
    (files : Files Str UInt8) :
    Files.AllDone NamesFile (persist json path store) files
        (Function.update files path (some (asBytes (json.toStringPretty store.writes store.entries)))) ∧
      Files.CutShort NamesFile (persist json path store) files (Function.update files path (some [])) := by
  rw [persist, inPlace]
  exact ⟨Files.replacing_self named _ _, Files.replacing_self_torn named _ _⟩

/-- Written in place, the file may be found empty after a mark has succeeded. -/
theorem not_crashSafe_in_place (inPlace : tmpPath path = path) (named : NamesFile path) (mark : Mark) :
    ¬ CrashSafe json path := by
  intro safe
  have start : Reached json path ⟨fun _ => none, {}, {}⟩ := .loaded rfl
  have first := start.succeeded mark (persist_in_place inPlace named _ _).1
  obtain ⟨store, loads, same⟩ := safe _ first _ _ (.inside mark (persist_in_place inPlace named _ _).2)
  rw [load_empty (Function.update_self ..)] at loads
  cases loads
  have missing : ∀ before : CheckpointStore, ¬ SameEntries {} (marked before mark) := by
    intro before same
    have entry := same (encode mark.bucket mark.key)
    rw [marked_get] at entry
    cases entry
  rcases same with completed | ⟨other, current, inProgress⟩
  · exact missing _ completed
  · obtain rfl := Option.some.inj current
    exact missing _ inProgress

/-- The file survives every crash exactly if it is not its own temporary file. -/
theorem crashSafe_iff (json : Json) (path : Str) : CrashSafe json path ↔ WrittenAside path := by
  constructor
  · intro safe
    by_contra inPlace
    rw [WrittenAside, not_or, not_not, not_not] at inPlace
    exact not_crashSafe_in_place inPlace.1 inPlace.2 ⟨[], [], none, 0⟩ safe
  · intro aside p reached inProgress files crash
    obtain ⟨store, loads, same⟩ := reached_loads aside reached
    cases crash with
    | between => exact ⟨store, loads, .inl same⟩
    | inside mark cut => exact ⟨store, (load_congr (persist_cut aside cut)).trans loads, .inl same⟩
    | renamed mark done =>
      obtain ⟨store, loads, same⟩ := persist_done done
      exact ⟨store, loads, .inr ⟨mark, rfl, same⟩⟩

/-! A checkpoint of one object, under a path with the temporary extension. -/

def chunkMark : Mark := ⟨"market-data".toList, "live/chunk.feather".toList, some "e1".toList, 2⟩

def chunkEntries : HashMap Str ProcessedMeta := (marked {} chunkMark).entries

def chunkText : Str :=
  "\x7b\n  \"market-data\\u0000live/chunk.feather\": \x7b\n    \"etag\": \"e1\",\n    ".toList ++
    "\"processed_at\": \"2024-01-01T00:00:00Z\",\n    \"rows\": 2\n  \x7d\n\x7d".toList

@[reducible] def charCode : Encodable Char := .ofLeftInverse Char.toNat Char.ofNat Char.ofNat_toNat

@[reducible] def metaCode : Encodable ProcessedMeta :=
  have := charCode
  .ofLeftInverse (fun m => (m.etag, m.rows)) (fun pair => ⟨pair.1, pair.2⟩) fun _ => rfl

@[reducible] def entriesCode : Encodable (List (Σ _ : Str, ProcessedMeta)) :=
  have := charCode
  have := metaCode
  inferInstance

instance (entries : List (Σ _ : Str, ProcessedMeta)) : Decidable entries.NodupKeys :=
  inferInstanceAs (Decidable entries.keys.Nodup)

def decodeEntries (digits : Str) : Option (HashMap Str ProcessedMeta) :=
  (entriesCode.decode (Nat.ofDigitChars 10 digits 0)).bind fun entries =>
    if distinct : entries.NodupKeys then some ⟨entries, distinct⟩ else none

theorem decodeEntries_decimal (entries : HashMap Str ProcessedMeta) :
    decodeEntries (decimal (entriesCode.encode entries.entries)) = some entries := by
  rw [decodeEntries, decimal, Nat.ofDigitChars_ten_toDigits, entriesCode.encodek, Option.bind_some,
    dif_pos entries.nodupKeys]

/-- The entries of that object as JSON, and every other map as a number. -/
def chunkJson : Json where
  toStringPretty _ entries :=
    if entries = chunkEntries then chunkText else '{' :: decimal (entriesCode.encode entries.entries)
  fromStr text := if text = chunkText then some chunkEntries else decodeEntries text.tail
  opens n entries := by
    split <;> rfl
  reads n entries := by
    refine ⟨entries, ?_, fun _ => rfl⟩
    split
    · rename_i same
      rw [if_pos rfl, same]
    · rw [if_neg, List.tail_cons, decodeEntries_decimal]
      intro same
      have second : '\n' ∈ decimal (entriesCode.encode entries.entries) := by
        have tail := congrArg List.tail same
        rw [List.tail_cons] at tail
        rw [tail]
        decide +kernel
      exact absurd (isDigit_of_mem_decimal second) (by decide)

/-- The file is its own temporary file, so a crash in a write can leave it empty. -/
theorem tmp_checkpoint_torn : ¬ CrashSafe chunkJson "ingest.checkpoint.tmp".toList :=
  not_crashSafe_in_place (by decide +kernel) (by decide +kernel) chunkMark

end CheckpointStore
end QuestRouter.Ingest
