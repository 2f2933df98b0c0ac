import LimbAnimation.ClipFile.Keyframe
import LimbAnimation.Notice

/-!
# Blocks

The keyframes of one limb are gathered in a block.  When the block closes, their
times are divided by the longest one, and each channel becomes a curve.
-/

namespace LimbAnimation.ClipFile

/-- The keyframes of one limb in the order of the file. -/
structure Block where
  limb : Limb
  followsAim : Bool
  keyframes : List Keyframe
  deriving DecidableEq

def isHand : Limb → Bool
  | .hand _ => true
  | _ => false

namespace Block

def start (limb : Limb) : Block := ⟨limb, false, []⟩

def duration (block : Block) : Single :=
  block.keyframes.foldl (fun longest keyframe => longest.larger keyframe.time) 0

/-- A time as a fraction of a duration; zero when there is none. -/
def fraction (duration time : Single) : Single := if 0 < duration then time / duration else 0

def keys {α : Type} (block : Block) (channel : Keyframe → Option α) : List (Key α) :=
  let duration := block.duration
  block.keyframes.filterMap fun keyframe =>
    (channel keyframe).map fun value => ⟨value, fraction duration keyframe.time⟩

/-- The curve of one channel; none when no keyframe gives it a value. -/
def curve? {α : Type} (block : Block) (channel : Keyframe → Option α) : Option (Curve α) :=
  match block.keys channel with
  | [] => none
  | keys => some ⟨keys⟩

def shapes (block : Block) : HandShape.Timeline :=
  let duration := block.duration
  ⟨block.keyframes.filterMap fun keyframe =>
    keyframe.shape.map fun shape => ⟨fraction duration keyframe.time, shape⟩⟩

def track (block : Block) : Track where
  limb := block.limb
  duration := block.duration
  followsAim := block.followsAim
  translation := block.curve? Keyframe.position
  rotation := block.curve? Keyframe.rotation
  scale := block.curve? Keyframe.scale
  shapes := block.shapes

/-- The positions of the last keys on the three curves. -/
structure Ends where
  translation : Option Single
  rotation : Option Single
  scale : Option Single

/-- The notice for a key, if there is one, that stands before the last one. -/
def setBack {α : Type} (last : Option Single) (value : Option α) (position : Single) :
    List Notice :=
  match last, value with
  | some last, some _ => if position < last then [.keySetBack position last] else []
  | _, _ => []

/-- The position of the last key after a keyframe. -/
def lastAfter {α : Type} (last : Option Single) (value : Option α) (position : Single) :
    Option Single :=
  if value.isSome then some position else last

/-- The notices for keys that stand before the last one of their curve. -/
def setBacks (duration : Single) : Ends → List Keyframe → List Notice
  | _, [] => []
  | ends, keyframe :: rest =>
    let position := fraction duration keyframe.time
    setBack ends.translation keyframe.position position ++
      setBack ends.rotation keyframe.rotation position ++
      setBack ends.scale keyframe.scale position ++
      setBacks duration
        ⟨lastAfter ends.translation keyframe.position position,
          lastAfter ends.rotation keyframe.rotation position,
          lastAfter ends.scale keyframe.scale position⟩ rest

def notices (clip : ClipKey) (block : Block) : List Notice :=
  setBacks block.duration ⟨none, none, none⟩ block.keyframes ++
    [.blockClosed clip block.limb block.keyframes.length block.duration]

end Block

end LimbAnimation.ClipFile
