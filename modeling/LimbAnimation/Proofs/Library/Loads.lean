import LimbAnimation.Proofs.ClipFile.Grammar
import LimbAnimation.Proofs.Library.Entries

/-!
# Loading clips

What a load gives is told by the file alone, or by the library when the clip is there
already.  What succeeds is stored under the key of the path, and what fails changes
nothing.
-/

namespace LimbAnimation

/-- The clip in some content, under a key. -/
def clipOf (key : ClipKey) (content : ClipFile.Bytes) : Except Failure Clip :=
  (ClipFile.readClip key content).mapError (.faultyClip key.text)

/-- The clip in the file at a path. -/
def Files.clip (files : Files) (path : String) : Except Failure Clip :=
  (files.read path).mapError (.unreadable path) >>= clipOf (.ofPath path)

theorem key_of_clipOf {key : ClipKey} {content : ClipFile.Bytes} {clip : Clip}
    (given : clipOf key content = .ok clip) : clip.key = key := by
  obtain ⟨sheet, _, _, rfl⟩ := ClipFile.readClip_eq_ok_iff.mp (mapError_eq_ok_iff.mp given)
  rfl

theorem Files.clip_eq_ok_iff {files : Files} {path : String} {clip : Clip} :
    files.clip path = .ok clip ↔
      ∃ content, files.read path = .ok content ∧
        ClipFile.readClip (.ofPath path) content = .ok clip := by
  simp only [Files.clip, bind_eq_ok_iff, clipOf, mapError_eq_ok_iff]

theorem Files.key_of_clip {files : Files} {path : String} {clip : Clip}
    (given : files.clip path = .ok clip) : clip.key = .ofPath path := by
  obtain ⟨content, _, read⟩ := bind_eq_ok_iff.mp given
  exact key_of_clipOf read

namespace Library

variable {library : Library} {files : Files} {path : String}

/-- The library with the clip of an outcome, if there is one. -/
def keeping (library : Library) : Except Failure Clip → Library
  | .ok clip => (library.insert clip).1
  | .error _ => library

/-- An attempt that stores what an outcome gives. -/
structure Attempt.Stores (attempt : Attempt Clip) (library : Library)
    (outcome : Except Failure Clip) : Prop where
  result : attempt.result = outcome
  library : attempt.library = library.keeping outcome

theorem Attempt.Stores.library_of_error {attempt : Attempt Clip}
    {outcome : Except Failure Clip} (stores : attempt.Stores library outcome)
    {failure : Failure} (failed : attempt.result = .error failure) : attempt.library = library := by
  rw [stores.library, ← stores.result, failed]
  rfl

theorem Attempt.noting_result {α : Type} (attempt : Attempt α) (notice : α → Notice) :
    (attempt.noting notice).result = attempt.result := by
  unfold noting
  split <;> rfl

theorem Attempt.noting_library {α : Type} (attempt : Attempt α) (notice : α → Notice) :
    (attempt.noting notice).library = attempt.library := by
  unfold noting
  split <;> rfl

theorem Attempt.Stores.noting {attempt : Attempt Clip} {outcome : Except Failure Clip}
    (stores : attempt.Stores library outcome) (notice : Clip → Notice) :
    (attempt.noting notice).Stores library outcome :=
  ⟨(attempt.noting_result notice).trans stores.result,
    (attempt.noting_library notice).trans stores.library⟩

theorem loadBytes_stores (library : Library) (key : ClipKey) (content : ClipFile.Bytes) :
    (library.loadBytes key content).Stores library (clipOf key content) := by
  unfold loadBytes clipOf
  cases ClipFile.readClip key content with
  | ok clip => exact ⟨rfl, rfl⟩
  | error faulty => exact ⟨rfl, rfl⟩

theorem readFile_stores (library : Library) (files : Files) (path : String) :
    (library.readFile files path).Stores library (files.clip path) := by
  unfold readFile Files.clip
  cases files.read path with
  | error reason => exact ⟨rfl, rfl⟩
  | ok content => exact (loadBytes_stores library (.ofPath path) content).noting _

theorem reloadFile_stores (library : Library) (files : Files) (path : String) :
    (library.reloadFile files path).Stores library (files.clip path) :=
  (readFile_stores library files path).noting _

theorem loadFile_of_present {clip : Clip} (present : library.get? (.ofPath path) = some clip)
    (files : Files) : library.loadFile files path = ⟨library, .ok clip, []⟩ := by
  rw [loadFile, present]

theorem loadFile_of_absent (absent : library.get? (.ofPath path) = none) (files : Files) :
    (library.loadFile files path).Stores library (files.clip path) := by
  rw [loadFile, absent]
  exact readFile_stores library files path

theorem loadFile_library_of_error {failure : Failure}
    (failed : (library.loadFile files path).result = .error failure) :
    (library.loadFile files path).library = library := by
  cases found : library.get? (.ofPath path) with
  | some clip =>
      rw [loadFile_of_present found] at failed
      cases failed
  | none => exact (loadFile_of_absent found files).library_of_error failed

/-- Some files are loaded one after the other, up to the first that fails. -/
inductive LoadsInTurn (files : Files) :
    Library → List String → Library → Option Failure → Prop where
  | done (library : Library) : LoadsInTurn files library [] library none
  | loaded {library last : Library} {path : String} {rest : List String} {clip : Clip}
      {failure? : Option Failure} :
      (library.loadFile files path).result = .ok clip →
      LoadsInTurn files (library.loadFile files path).library rest last failure? →
      LoadsInTurn files library (path :: rest) last failure?
  | failed {library : Library} {path : String} {rest : List String} {failure : Failure} :
      (library.loadFile files path).result = .error failure →
      LoadsInTurn files library (path :: rest) library (some failure)

/-- The result of a request that may have failed. -/
def outcome {α : Type} (value : α) : Option Failure → Except Failure α
  | none => .ok value
  | some failure => .error failure

theorem loadFiles_loadsInTurn (library : Library) (files : Files) (paths : List String) :
    ∃ failure?,
      LoadsInTurn files library paths (library.loadFiles files paths).library failure? ∧
        (library.loadFiles files paths).result = outcome () failure? := by
  induction paths generalizing library with
  | nil => exact ⟨none, .done library, rfl⟩
  | cons path rest ih =>
      cases result : (library.loadFile files path).result with
      | error failure =>
          refine ⟨some failure, ?_, by simp [loadFiles, result, outcome]⟩
          simpa [loadFiles, result, loadFile_library_of_error result] using .failed result
      | ok clip =>
          obtain ⟨failure?, inTurn, ended⟩ := ih (library.loadFile files path).library
          refine ⟨failure?, ?_, by simpa [loadFiles, result] using ended⟩
          simpa [loadFiles, result] using .loaded result inTurn

theorem loadFolder_loadsInTurn {paths : List String} (listed : files.list path = .ok paths)
    (library : Library) :
    ∃ failure?,
      LoadsInTurn files library (candidates paths) (library.loadFolder files path).library
          failure? ∧
        (library.loadFolder files path).result = outcome (candidates paths).length failure? := by
  obtain ⟨failure?, inTurn, ended⟩ := loadFiles_loadsInTurn library files (candidates paths)
  refine ⟨failure?, by simpa [loadFolder, listed] using inTurn, ?_⟩
  simp only [loadFolder, listed, ended]
  cases failure? <;> rfl

theorem candidates_perm (paths : List String) :
    (candidates paths).Perm (paths.filter ClipKey.isClipPath) :=
  List.mergeSort_perm _ _

theorem candidates_ascend (paths : List String) :
    (candidates paths).Pairwise fun left right => ¬ right < left := by
  have trans : ∀ first second third : String, (!decide (second < first)) = true →
      (!decide (third < second)) = true → (!decide (third < first)) = true := by
    simp only [Bool.not_eq_true', decide_eq_false_iff_not, String.not_lt]
    exact fun _ _ _ => String.le_trans
  have total : ∀ left right : String,
      ((!decide (right < left)) || !decide (left < right)) = true := by
    simp only [Bool.or_eq_true, Bool.not_eq_true', decide_eq_false_iff_not, String.not_lt]
    exact String.le_total
  have sorted := List.pairwise_mergeSort trans total (paths.filter ClipKey.isClipPath)
  simpa [candidates] using sorted

end Library

end LimbAnimation
