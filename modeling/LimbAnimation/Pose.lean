import LimbAnimation.HandShape
import LimbAnimation.Vec

/-!
# Poses

A pose says where each limb of a character is.  Poses are blended limb by limb,
and a placement maps positions on curves into the space of the character.
-/

namespace LimbAnimation

structure LimbPose where
  position : Vec
  /-- Degrees. -/
  rotation : Single
  scale : Vec
  shape : Option HandShape
  deriving DecidableEq

/-- The limb at the origin, neither turned nor scaled. -/
def LimbPose.rest : LimbPose := ⟨.zero, 0, .one, none⟩

/-- The limb at `weight` on the way to a goal; from one half on it shows the
shape of the goal. -/
def LimbPose.blend (start goal : LimbPose) (weight : Single) : LimbPose where
  position := Blendable.blend start.position goal.position weight
  rotation := Blendable.blend start.rotation goal.rotation weight
  scale := Blendable.blend start.scale goal.scale weight
  shape := if weight < Single.half then start.shape else goal.shape

structure Pose where
  body : LimbPose
  head : LimbPose
  firstHand : LimbPose
  secondHand : LimbPose
  deriving DecidableEq

def handCount : Nat := 2

def Pose.rest : Pose := ⟨.rest, .rest, .rest, .rest⟩

/-- The pose at `weight` on the way to a goal. -/
def Pose.blend (start goal : Pose) (weight : Single) : Pose where
  body := start.body.blend goal.body weight
  head := start.head.blend goal.head weight
  firstHand := start.firstHand.blend goal.firstHand weight
  secondHand := start.secondHand.blend goal.secondHand weight

structure Placement where
  /-- Whether positions and rotations are mirrored. -/
  flipped : Bool
  /-- Degrees by which limbs that follow the aim are turned. -/
  aimAngle : Single
  /-- The factor on positions. -/
  scale : Single
  deriving DecidableEq

namespace Placement

def standard : Placement := ⟨false, 0, 1⟩

def flipSign (placement : Placement) : Single := if placement.flipped then -1 else 1

/-- A position on a curve in the space of the character. -/
def place (placement : Placement) (position : Vec) : Vec :=
  Vec.scaledBy ⟨position.x * placement.flipSign, position.y⟩ placement.scale

end Placement

end LimbAnimation
