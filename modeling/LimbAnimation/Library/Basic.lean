import LimbAnimation.Library.Failure
import LimbAnimation.Library.Files
import LimbAnimation.Library.Path

/-!
# Clip libraries

A library holds one clip for each key.  Clips come from outside or from files; a
clip that is already there is not read again unless that is asked for, and what
cannot be read changes nothing.
-/

namespace LimbAnimation

structure Library where
  clips : List Clip
  deriving DecidableEq

namespace Library

def empty : Library := ⟨[]⟩

def size (library : Library) : Nat := library.clips.length

def get? (library : Library) (key : ClipKey) : Option Clip :=
  library.clips.find? fun clip => clip.key = key

def contains (library : Library) (key : ClipKey) : Bool := (library.get? key).isSome

/-- The library without the clip of a key, and that clip. -/
def remove (library : Library) (key : ClipKey) : Library × Option Clip :=
  (⟨library.clips.filter fun clip => clip.key ≠ key⟩, library.get? key)

/-- The library with a clip in the place of an earlier one of its key, and the earlier one. -/
def insert (library : Library) (clip : Clip) : Library × Option Clip :=
  let others := library.remove clip.key
  (⟨clip :: others.1.clips⟩, others.2)

/-- The order of keys: by name, then by group. -/
def comesBefore (left right : ClipKey) : Bool :=
  decide (left.name < right.name) ||
    (left.name == right.name && !decide (right.group < left.group))

def keys (library : Library) : List ClipKey :=
  (library.clips.map Clip.key).mergeSort comesBefore

structure Attempt (α : Type) where
  library : Library
  result : Except Failure α
  notices : List Notice

def loadBytes (library : Library) (key : ClipKey) (content : ClipFile.Bytes) : Attempt Clip :=
  let notices := (ClipFile.Delivery.whole content).notices key
  match ClipFile.readClip key content with
  | .ok clip => ⟨(library.insert clip).1, .ok clip, notices⟩
  | .error faulty => ⟨library, .error (.faultyClip key.text faulty), notices⟩

/-- An attempt with a further notice in the case of success. -/
def Attempt.noting {α : Type} (attempt : Attempt α) (notice : α → Notice) : Attempt α :=
  match attempt.result with
  | .ok value => { attempt with notices := attempt.notices ++ [notice value] }
  | .error _ => attempt

def readFile (library : Library) (files : Files) (path : String) : Attempt Clip :=
  let key := ClipKey.ofPath path
  match files.read path with
  | .error reason => ⟨library, .error (.unreadable path reason), []⟩
  | .ok content =>
    (library.loadBytes key content).noting fun clip => .clipLoaded key clip.duration

/-- The clip for a path, from the library if it is there and from the file
otherwise. -/
def loadFile (library : Library) (files : Files) (path : String) : Attempt Clip :=
  match library.get? (ClipKey.ofPath path) with
  | some clip => ⟨library, .ok clip, []⟩
  | none => library.readFile files path

def reloadFile (library : Library) (files : Files) (path : String) : Attempt Clip :=
  (library.readFile files path).noting fun clip => .clipReloaded clip.key path

/-- Loads some files one after the other, up to the first failure. -/
def loadFiles (library : Library) (files : Files) : List String → Attempt Unit
  | [] => ⟨library, .ok (), []⟩
  | path :: rest =>
    let attempt := library.loadFile files path
    match attempt.result with
    | .error failure => ⟨attempt.library, .error failure, attempt.notices⟩
    | .ok _ =>
      let others := attempt.library.loadFiles files rest
      { others with notices := attempt.notices ++ others.notices }

/-- The clip files among some paths, in order. -/
def candidates (paths : List String) : List String :=
  (paths.filter ClipKey.isClipPath).mergeSort fun left right => !decide (right < left)

/-- Loads the clip files directly inside a folder and counts them. -/
def loadFolder (library : Library) (files : Files) (path : String) : Attempt Nat :=
  match files.list path with
  | .error reason => ⟨library, .error (.unreadable path reason), []⟩
  | .ok paths =>
    let chosen := candidates paths
    let attempt := library.loadFiles files chosen
    ⟨attempt.library, attempt.result.map fun _ => chosen.length, attempt.notices⟩

end Library

end LimbAnimation
