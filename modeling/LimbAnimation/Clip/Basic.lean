import LimbAnimation.Curve
import LimbAnimation.HandShape
import LimbAnimation.Restrictions.Timeline

/-!
# Clips

A clip is one animation of a character: a track for the body, for the head and
for each hand that it moves, and the restrictions that hold while it plays.
-/

namespace LimbAnimation

/-- What a track moves; hands are counted from zero. -/
inductive Limb where
  | body
  | head
  | hand (index : Nat)
  deriving DecidableEq

/-- The movement of one limb.  Positions on the curves are fractions of the
duration; a curve may be missing. -/
structure Track where
  limb : Limb
  /-- Seconds from the start to the last keyframe. -/
  duration : Single
  /-- Whether the limb turns with the aim of the character. -/
  followsAim : Bool
  translation : Option (Curve Vec)
  /-- Degrees. -/
  rotation : Option (Curve Single)
  scale : Option (Curve Vec)
  shapes : HandShape.Timeline
  deriving DecidableEq

/-- The number of keys of a curve; none count for a missing one. -/
def Curve.sizeOr0 {α : Type} (curve : Option (Curve α)) : Nat := (curve.map Curve.size).getD 0

/-- The largest number of keys on a curve of the track. -/
def Track.keyCount (track : Track) : Nat :=
  max (max (Curve.sizeOr0 track.translation) (Curve.sizeOr0 track.rotation))
    (Curve.sizeOr0 track.scale)

structure ClipKey where
  name : String
  group : String
  deriving DecidableEq

def ClipKey.text (key : ClipKey) : String := key.group ++ "/" ++ key.name

structure Clip where
  key : ClipKey
  body : Option Track
  head : Option Track
  hands : List Track
  restrictions : RestrictionTimeline
  /-- Seconds until the longest track ends. -/
  duration : Single
  smooth : Bool
  /-- Whether hands move relative to where they would be otherwise. -/
  relativeHands : Bool
  deriving DecidableEq

/-- All tracks: the body, the head and the hands in their order. -/
def Clip.tracks (clip : Clip) : List Track :=
  clip.body.toList ++ clip.head.toList ++ clip.hands

def Clip.maxKeyCount (clip : Clip) : Nat := (clip.tracks.map Track.keyCount).foldl max 0

end LimbAnimation
