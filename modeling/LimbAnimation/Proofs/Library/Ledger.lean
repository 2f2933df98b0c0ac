import LimbAnimation.Proofs.Library.Loads
import Mathlib.Data.List.Induction

/-!
# The ledger of a library

Which clips were stored and which keys were removed can be told from the requests and the
files alone.  The main statement is that a library holds, for each key, what was stored
under it last and has not been removed since.
-/

namespace LimbAnimation.Library

/-- What is done with a library.  A request that reads files sees them as they are then. -/
inductive Request where
  | insert (clip : Clip)
  | remove (key : ClipKey)
  | loadBytes (key : ClipKey) (content : ClipFile.Bytes)
  | loadFile (files : Files) (path : String)
  | reloadFile (files : Files) (path : String)
  | loadFolder (files : Files) (path : String)

def after (library : Library) : Request → Library
  | .insert clip => (library.insert clip).1
  | .remove key => (library.remove key).1
  | .loadBytes key content => (library.loadBytes key content).library
  | .loadFile files path => (library.loadFile files path).library
  | .reloadFile files path => (library.reloadFile files path).library
  | .loadFolder files path => (library.loadFolder files path).library

def run (library : Library) (requests : List Request) : Library := requests.foldl after library

theorem run_concat (library : Library) (requests : List Request) (request : Request) :
    library.run (requests ++ [request]) = (library.run requests).after request := by
  rw [run, List.foldl_append]
  rfl

/-- A line of the ledger. -/
inductive Change where
  | stored (key : ClipKey) (clip : Clip)
  | removed (key : ClipKey)

namespace Change

def key : Change → ClipKey
  | stored key _ => key
  | removed key => key

def clip? : Change → Option Clip
  | stored _ clip => some clip
  | removed _ => none

/-- A clip is stored under its own key. -/
def WellKeyed : Change → Prop
  | stored key clip => clip.key = key
  | removed _ => True

/-- What an outcome adds to the ledger under a key. -/
def ofOutcome (key : ClipKey) : Except Failure Clip → List Change
  | .ok clip => [stored key clip]
  | .error _ => []

theorem ofOutcome_wellKeyed {key : ClipKey} {outcome : Except Failure Clip}
    (keyed : ∀ clip, outcome = .ok clip → clip.key = key) :
    ∀ change ∈ ofOutcome key outcome, change.WellKeyed := by
  cases outcome with
  | ok clip => simpa [ofOutcome, WellKeyed] using keyed
  | error failure => simp [ofOutcome]

end Change

/-- The clip was stored under the key, and nothing was done with the key since. -/
def Latest (key : ClipKey) (clip : Clip) (changes : List Change) : Prop :=
  ∃ before later, changes = before ++ .stored key clip :: later ∧
    ∀ change ∈ later, change.key ≠ key

/-- What the last change of a key has left there. -/
def held (changes : List Change) (key : ClipKey) : Option Clip :=
  (changes.reverse.find? fun change => change.key = key).bind Change.clip?

theorem held_concat (changes : List Change) (change : Change) (key : ClipKey) :
    held (changes ++ [change]) key =
      if key = change.key then change.clip? else held changes key := by
  rw [held, List.reverse_append, List.reverse_singleton, List.singleton_append, List.find?_cons]
  by_cases same : change.key = key
  · simp [same]
  · simp [same, Ne.symm same, held]

theorem held_eq_some_iff {changes : List Change} {key : ClipKey} {clip : Clip} :
    held changes key = some clip ↔ Latest key clip changes := by
  simp only [held, Option.bind_eq_some_iff, List.find?_eq_some_iff_append]
  constructor
  · rintro ⟨change, ⟨matched, later, before, reversed, apart⟩, gives⟩
    cases change with
    | removed other => cases gives
    | stored other stored =>
        cases gives
        cases of_decide_eq_true matched
        refine ⟨before.reverse, later.reverse, ?_, by simpa using apart⟩
        rw [← List.reverse_reverse changes, reversed]
        simp [Change.key]
  · rintro ⟨before, later, rfl, apart⟩
    exact ⟨.stored key clip, ⟨decide_eq_true rfl, later.reverse, before.reverse, by simp,
      by simpa using apart⟩, rfl⟩

/-- What it adds to the ledger to load some files in turn.  A file whose clip is held is
passed over, and the first one that gives no clip is the last. -/
def loads (files : Files) : (changes : List Change) → List String → List Change
  | _, [] => []
  | changes, path :: rest =>
    if (held changes (.ofPath path)).isSome then loads files changes rest
    else match files.clip path with
      | .ok clip =>
        .stored (.ofPath path) clip :: loads files (changes ++ [.stored (.ofPath path) clip]) rest
      | .error _ => []

/-- What a request adds to the ledger. -/
def Request.changes (changes : List Change) : Request → List Change
  | insert clip => [.stored clip.key clip]
  | remove key => [.removed key]
  | loadBytes key content => Change.ofOutcome key (clipOf key content)
  | loadFile files path => loads files changes [path]
  | reloadFile files path => Change.ofOutcome (.ofPath path) (files.clip path)
  | loadFolder files path =>
    match files.list path with
    | .ok paths => loads files changes (candidates paths)
    | .error _ => []

/-- The ledger of some requests, from an empty library. -/
def ledger (requests : List Request) : List Change :=
  requests.foldl (fun changes request => changes ++ request.changes changes) []

theorem ledger_concat (requests : List Request) (request : Request) :
    ledger (requests ++ [request]) = ledger requests ++ request.changes (ledger requests) := by
  rw [ledger, List.foldl_append]
  rfl

theorem loads_wellKeyed (files : Files) (changes : List Change) (paths : List String) :
    ∀ change ∈ loads files changes paths, change.WellKeyed := by
  induction paths generalizing changes with
  | nil => simp [loads]
  | cons path rest ih =>
      rw [loads]
      split
      next => exact ih changes
      next =>
          split
          next clip given =>
              rw [List.forall_mem_cons]
              exact ⟨files.key_of_clip given, ih _⟩
          next => simp

theorem Request.changes_wellKeyed (changes : List Change) (request : Request) :
    ∀ change ∈ request.changes changes, change.WellKeyed := by
  cases request with
  | insert clip => simp [Request.changes, Change.WellKeyed]
  | remove key => simp [Request.changes, Change.WellKeyed]
  | loadBytes key content => exact Change.ofOutcome_wellKeyed fun _ => key_of_clipOf
  | loadFile files path => exact loads_wellKeyed files changes [path]
  | reloadFile files path => exact Change.ofOutcome_wellKeyed fun _ => files.key_of_clip
  | loadFolder files path =>
      rw [Request.changes]
      split
      next paths _ => exact loads_wellKeyed files changes (candidates paths)
      next => simp

def applied (library : Library) : Change → Library
  | .stored _ clip => (library.insert clip).1
  | .removed key => (library.remove key).1

/-- The library holds what the ledger says. -/
structure Reflects (library : Library) (changes : List Change) : Prop where
  entries : ∀ key, library.get? key = held changes key
  distinct : library.Distinct

section Reflects

variable {library : Library} {changes : List Change}

theorem reflects_empty : Reflects empty [] := ⟨get?_empty, distinct_empty⟩

theorem Reflects.applied (reflects : Reflects library changes) {change : Change}
    (wellKeyed : change.WellKeyed) : Reflects (library.applied change) (changes ++ [change]) := by
  cases change with
  | stored key clip =>
      cases (show clip.key = key from wellKeyed)
      refine ⟨fun key => ?_, reflects.distinct.insert clip⟩
      rw [held_concat, ← reflects.entries]
      exact get?_insert library clip key
  | removed removed =>
      refine ⟨fun key => ?_, reflects.distinct.remove removed⟩
      rw [held_concat, ← reflects.entries]
      exact get?_remove library removed key

theorem Reflects.foldl_applied (reflects : Reflects library changes) {more : List Change}
    (wellKeyed : ∀ change ∈ more, change.WellKeyed) :
    Reflects (more.foldl Library.applied library) (changes ++ more) := by
  induction more generalizing library changes with
  | nil => rwa [List.append_nil]
  | cons change rest ih =>
      rw [List.forall_mem_cons] at wellKeyed
      rw [List.append_cons]
      exact ih (reflects.applied wellKeyed.1) wellKeyed.2

theorem keeping_eq (library : Library) (key : ClipKey) (outcome : Except Failure Clip) :
    library.keeping outcome = (Change.ofOutcome key outcome).foldl Library.applied library := by
  cases outcome <;> rfl

theorem Reflects.loadFile (reflects : Reflects library changes) (files : Files) (path : String) :
    (library.loadFile files path).library =
      (loads files changes [path]).foldl Library.applied library := by
  have entry := reflects.entries (.ofPath path)
  cases found : library.get? (.ofPath path) with
  | some clip => simp [loadFile_of_present found, loads, ← entry, found]
  | none =>
      rw [(loadFile_of_absent found files).library]
      cases given : files.clip path with
      | ok clip => simp [loads, ← entry, found, given, keeping, Library.applied]
      | error failure => simp [loads, ← entry, found, given, keeping]

theorem loads_cons_of_ok {files : Files} {path : String} {clip : Clip}
    (reflects : Reflects library changes)
    (loaded : (library.loadFile files path).result = .ok clip) (rest : List String) :
    loads files changes (path :: rest) = loads files changes [path] ++
      loads files (changes ++ loads files changes [path]) rest := by
  have entry := reflects.entries (.ofPath path)
  cases found : library.get? (.ofPath path) with
  | some clip => simp [loads, ← entry, found]
  | none =>
      rw [(loadFile_of_absent found files).result] at loaded
      simp [loads, ← entry, found, loaded]

theorem loads_cons_of_error {files : Files} {path : String} {failure : Failure}
    (reflects : Reflects library changes)
    (failed : (library.loadFile files path).result = .error failure) (rest : List String) :
    loads files changes (path :: rest) = [] := by
  have entry := reflects.entries (.ofPath path)
  cases found : library.get? (.ofPath path) with
  | some clip =>
      rw [loadFile_of_present found] at failed
      cases failed
  | none =>
      rw [(loadFile_of_absent found files).result] at failed
      simp [loads, ← entry, found, failed]

theorem LoadsInTurn.eq_loads {files : Files} {last : Library} {paths : List String}
    {failure? : Option Failure} (inTurn : LoadsInTurn files library paths last failure?)
    (reflects : Reflects library changes) :
    last = (loads files changes paths).foldl Library.applied library := by
  induction inTurn generalizing changes with
  | done library => rfl
  | @loaded library last path rest clip failure? loaded _ ih =>
      have next := reflects.foldl_applied (loads_wellKeyed files changes [path])
      rw [← reflects.loadFile files path] at next
      rw [ih next, loads_cons_of_ok reflects loaded rest, List.foldl_append,
        reflects.loadFile files path]
  | failed failed =>
      rw [loads_cons_of_error reflects failed]
      rfl

/-- A request does with the library what it adds to the ledger. -/
theorem Reflects.after_eq (reflects : Reflects library changes) (request : Request) :
    library.after request = (request.changes changes).foldl Library.applied library := by
  cases request with
  | insert clip => rfl
  | remove key => rfl
  | loadBytes key content =>
      exact (loadBytes_stores library key content).library.trans (keeping_eq library key _)
  | loadFile files path => exact reflects.loadFile files path
  | reloadFile files path =>
      exact (reloadFile_stores library files path).library.trans (keeping_eq library _ _)
  | loadFolder files path =>
      rw [after, Request.changes]
      cases listed : files.list path with
      | error reason => simp [loadFolder, listed]
      | ok paths =>
          obtain ⟨failure?, inTurn, _⟩ := loadFolder_loadsInTurn listed library
          exact inTurn.eq_loads reflects

end Reflects

theorem run_reflects (requests : List Request) :
    Reflects (empty.run requests) (ledger requests) := by
  induction requests using List.reverseRecOn with
  | nil => exact reflects_empty
  | append_singleton requests request ih =>
      rw [run_concat, ledger_concat, ih.after_eq]
      exact ih.foldl_applied (request.changes_wellKeyed _)

/-- After any requests a library holds under each key the clip that was stored there last
and not removed since, and this clip has the key.  A clip that is there is not read again.
Content and files that give a clip put it in the place of the earlier one; those that fail
leave the library as it was.  The clip files of a folder are loaded in the order of their
paths up to the first failure.  The keys are those of the stored clips, each once and in
order. -/
theorem library_holds_last_stored (requests : List Request) :
    let library := empty.run requests
    (∀ key clip, library.get? key = some clip ↔ Latest key clip (ledger requests)) ∧
    (∀ key clip, library.get? key = some clip → clip.key = key) ∧
    (∀ key content, (library.loadBytes key content).Stores library (clipOf key content)) ∧
    (∀ (files : Files) path clip, library.get? (.ofPath path) = some clip →
      library.loadFile files path = ⟨library, .ok clip, []⟩) ∧
    (∀ (files : Files) path, library.get? (.ofPath path) = none →
      (library.loadFile files path).Stores library (files.clip path)) ∧
    (∀ (files : Files) path, (library.reloadFile files path).Stores library (files.clip path)) ∧
    (∀ (files : Files) path clip, files.clip path = .ok clip ↔
      ∃ content, files.read path = .ok content ∧
        ClipFile.readClip (.ofPath path) content = .ok clip) ∧
    (∀ (files : Files) path reason, files.list path = .error reason →
      library.loadFolder files path = ⟨library, .error (.unreadable path reason), []⟩) ∧
    (∀ (files : Files) path paths, files.list path = .ok paths →
      (candidates paths).Perm (paths.filter ClipKey.isClipPath) ∧
      (candidates paths).Pairwise (fun left right => ¬ right < left) ∧
      ∃ failure?,
        LoadsInTurn files library (candidates paths) (library.loadFolder files path).library
            failure? ∧
          (library.loadFolder files path).result = outcome (candidates paths).length failure?) ∧
    (∀ key, key ∈ library.keys ↔ ∃ clip, library.get? key = some clip) ∧
    library.keys.Pairwise Precedes := by
  intro library
  have reflects : Reflects library (ledger requests) := run_reflects requests
  refine ⟨fun key clip => ?_, fun _ _ => key_of_get?, loadBytes_stores library,
    fun files _ _ present => loadFile_of_present present files,
    fun files _ absent => loadFile_of_absent absent files, reloadFile_stores library,
    fun _ _ _ => Files.clip_eq_ok_iff, ?_, ?_, fun _ => mem_keys_iff, reflects.distinct.keys_ascend⟩
  · rw [reflects.entries, held_eq_some_iff]
  · intro files path reason unlisted
    rw [loadFolder, unlisted]
  · intro files path paths listed
    exact ⟨candidates_perm paths, candidates_ascend paths, loadFolder_loadsInTurn listed library⟩

end LimbAnimation.Library
