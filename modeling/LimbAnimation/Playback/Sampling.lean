import LimbAnimation.Playback.Basic
import LimbAnimation.Pose

/-!
# Sampling

A playback gives a pose: each limb with a track is read off its curves, and all
else stays as it would be without the playback.
-/

namespace LimbAnimation

namespace Track

/-- The position on the track; relative movement starts from where the limb
would be otherwise. -/
def positionAt (track : Track) (placement : Placement) (relative : Bool)
    (procedural : LimbPose) (progress : Single) : Vec :=
  match track.translation.bind fun curve => (curve.valueAt? progress).map (curve, ·) with
  | none => procedural.position
  | some (curve, value) =>
    let placed := placement.place value
    let moved := match relative, curve.first? with
      | true, some first => placed + procedural.position - placement.place first
      | _, _ => placed
    if track.followsAim then moved.rotatedAround procedural.position placement.aimAngle
    else moved

def rotationAt (track : Track) (placement : Placement) (procedural : LimbPose)
    (progress : Single) : Single :=
  match track.rotation.bind fun curve => curve.valueAt? progress with
  | none => procedural.rotation
  | some degrees =>
    (if track.followsAim then placement.aimAngle else 0) + degrees * placement.flipSign

def scaleAt (track : Track) (procedural : LimbPose) (progress : Single) : Vec :=
  (track.scale.bind fun curve => curve.valueAt? progress).getD procedural.scale

/-- The shape on the track; a track with changes shows none before the first
one. -/
def shapeAt? (track : Track) (procedural : LimbPose) (progress : Single) : Option HandShape :=
  if track.shapes.changes.isEmpty then procedural.shape else track.shapes.shapeAt? progress

def sample (track : Track) (placement : Placement) (relative : Bool) (procedural : LimbPose)
    (progress : Single) : LimbPose where
  position := track.positionAt placement relative procedural progress
  rotation := track.rotationAt placement procedural progress
  scale := track.scaleAt procedural progress
  shape := track.shapeAt? procedural progress

end Track

namespace Playback

/-- A limb of the playback; without a track it stays as it would be
otherwise. -/
def sampleLimb (playback : Playback) (placement : Placement) (relative : Bool)
    (track : Option Track) (procedural : LimbPose) : LimbPose :=
  match track with
  | none => procedural
  | some track => track.sample placement relative procedural (playback.progress track)

/-- The pose of a playback.  A mirrored character drives each hand with the
track of the other one; further hand tracks move nothing. -/
def sample (playback : Playback) (placement : Placement) (procedural : Pose) : Pose :=
  let clip := playback.clip
  let hand (track : Option Track) (limb : LimbPose) :=
    playback.sampleLimb placement clip.relativeHands track limb
  let first := clip.hands[0]?
  let second := clip.hands[1]?
  { body := playback.sampleLimb placement false clip.body procedural.body
    head := playback.sampleLimb placement false clip.head procedural.head
    firstHand := hand (if placement.flipped then second else first) procedural.firstHand
    secondHand := hand (if placement.flipped then first else second) procedural.secondHand }

end Playback

end LimbAnimation
