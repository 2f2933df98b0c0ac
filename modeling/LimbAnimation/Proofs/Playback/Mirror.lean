import LimbAnimation.Proofs.Playback.Limbs

/-!
# Mirrored characters

The mirror image of a pose has positions and rotations on the other side, and the hands have
changed places.  A character that is mirrored, with its procedural pose and its aim, shows the
mirror image of what it would show otherwise.
-/

namespace LimbAnimation

open Single (SameNumber)

namespace Vec

/-- The vector on the other side of the vertical axis. -/
def mirrored (vector : Vec) : Vec := ⟨-vector.x, vector.y⟩

section Operations

variable (left right : Vec)

theorem mirrored_add_mirrored : (left.mirrored + right.mirrored).Same (left + right).mirrored :=
  ⟨Single.sameNumber_neg_add_neg left.x right.x, .refl _⟩

theorem mirrored_sub_mirrored : (left.mirrored - right.mirrored).Same (left - right).mirrored :=
  ⟨Single.sameNumber_neg_sub_neg left.x right.x, .refl _⟩

/-- A turn in the mirror goes the other way round. -/
theorem mirrored_rotatedAround_mirrored (vector pivot : Vec) (degrees : Single) :
    (vector.mirrored.rotatedAround pivot.mirrored (-degrees)).Same
      (vector.rotatedAround pivot degrees).mirrored := by
  have angle := Single.sameNumber_toRadians_neg degrees
  have sine : SameNumber (-degrees).toRadians.sin (-degrees.toRadians.sin) :=
    angle.sin.trans (Single.sameNumber_sin_neg _)
  have cosine : SameNumber (-degrees).toRadians.cos degrees.toRadians.cos := by
    rw [← Single.cos_neg degrees.toRadians]
    exact angle.cos
  have arm := mirrored_sub_mirrored vector pivot
  constructor
  · have across := (arm.x.mul cosine).trans (Single.sameNumber_neg_mul _ _)
    have along := (arm.y.mul sine).trans (Single.sameNumber_mul_neg _ _)
    have turned := (across.sub along).trans (Single.sameNumber_neg_sub_neg _ _)
    exact ((SameNumber.refl (-pivot.x)).add turned).trans (Single.sameNumber_neg_add_neg _ _)
  · have across := (arm.x.mul sine).trans (Single.sameNumber_neg_mul_neg _ _)
    have along := arm.y.mul cosine
    exact (SameNumber.refl pivot.y).add (across.add along)

end Operations

end Vec

/-- The placement of the mirrored character. -/
def Placement.mirrored (placement : Placement) : Placement :=
  { placement with flipped := !placement.flipped, aimAngle := -placement.aimAngle }

namespace Placement

variable (placement : Placement)

theorem flipSign_mirrored : placement.mirrored.flipSign = -placement.flipSign := by
  unfold flipSign mirrored
  cases placement.flipped with
  | false => rfl
  | true => exact (Single.neg_neg 1).symm

theorem place_mirrored (position : Vec) :
    (placement.mirrored.place position).Same (placement.place position).mirrored := by
  constructor
  · show SameNumber (position.x * placement.mirrored.flipSign * placement.scale) _
    rw [flipSign_mirrored]
    have mirrored := Single.sameNumber_mul_neg position.x placement.flipSign
    have moved := mirrored.mul_right placement.scale
    exact moved.trans (Single.sameNumber_neg_mul _ _)
  · exact .refl _

end Placement

/-- The limb on the other side, turned the other way. -/
def LimbPose.mirrored (limb : LimbPose) : LimbPose :=
  { limb with position := limb.position.mirrored, rotation := -limb.rotation }

namespace Track

variable (track : Track) (placement : Placement) (relative : Bool) (procedural : LimbPose)

theorem movedTo_mirrored (start : Vec) (curve : Curve Vec) (value : Vec) :
    (movedTo placement.mirrored relative start.mirrored curve value).Same
      (movedTo placement relative start curve value).mirrored := by
  have placed := placement.place_mirrored value
  unfold movedTo
  split
  next first _ =>
      have sum := (placed.add (.refl start.mirrored)).trans (Vec.mirrored_add_mirrored _ _)
      exact (sum.sub (placement.place_mirrored first)).trans (Vec.mirrored_sub_mirrored _ _)
  next => exact placed

theorem carriedTo_mirrored (curve : Curve Vec) (value : Vec) :
    (track.carriedTo placement.mirrored relative procedural.mirrored curve value).Same
      (track.carriedTo placement relative procedural curve value).mirrored := by
  have moved := movedTo_mirrored placement relative procedural.position curve value
  unfold carriedTo
  dsimp only
  split
  · exact (moved.rotatedAround (.refl _) _).trans (Vec.mirrored_rotatedAround_mirrored _ _ _)
  · exact moved

variable (progress : Single)

theorem positionAt_mirrored :
    (track.positionAt placement.mirrored relative procedural.mirrored progress).Same
      (track.positionAt placement relative procedural progress).mirrored := by
  rw [positionAt_eq, positionAt_eq]
  cases track.translation with
  | none => exact .refl _
  | some curve =>
      cases sampled : curve.valueAt? progress with
      | none =>
          simp only [Option.bind_some, sampled, Option.map_none, Option.getD_none]
          exact .refl _
      | some value =>
          simp only [Option.bind_some, sampled, Option.map_some, Option.getD_some]
          exact track.carriedTo_mirrored placement relative procedural curve value

theorem rotationAt_mirrored :
    SameNumber (track.rotationAt placement.mirrored procedural.mirrored progress)
      (-track.rotationAt placement procedural progress) := by
  unfold rotationAt
  cases track.rotation.bind fun curve => curve.valueAt? progress with
  | none => exact .refl _
  | some degrees =>
      have turned : SameNumber (degrees * placement.mirrored.flipSign)
          (-(degrees * placement.flipSign)) := by
        rw [placement.flipSign_mirrored]
        exact Single.sameNumber_mul_neg _ _
      have aim : SameNumber (if track.followsAim then placement.mirrored.aimAngle else 0)
          (-(if track.followsAim then placement.aimAngle else 0)) := by
        split
        · exact .refl _
        · exact Single.zero_finiteAt.sameNumber Single.zero_finiteAt.neg
      exact (aim.add turned).trans (Single.sameNumber_neg_add_neg _ _)

theorem sample_mirrored :
    (track.sample placement.mirrored relative procedural.mirrored progress).Same
      (track.sample placement relative procedural progress).mirrored where
  position := track.positionAt_mirrored placement relative procedural progress
  rotation := track.rotationAt_mirrored placement procedural progress
  scale := .refl _
  shape := rfl

end Track

/-- The pose in a mirror: each limb on the other side, and each hand as the other one. -/
def Pose.mirrored (pose : Pose) : Pose :=
  ⟨pose.body.mirrored, pose.head.mirrored, pose.secondHand.mirrored, pose.firstHand.mirrored⟩

/-- The limb that a mirror shows in the place of a limb. -/
def Slot.opposite : Slot → Slot
  | .hand side => .hand side.rev
  | slot => slot

section Opposite

variable (slot : Slot)

theorem Slot.isHand_opposite : slot.opposite.isHand = slot.isHand := by
  cases slot <;> rfl

theorem Pose.limb_mirrored (pose : Pose) :
    pose.mirrored.limb slot = (pose.limb slot.opposite).mirrored := by
  cases slot with
  | body => rfl
  | head => rfl
  | hand side =>
      match side with
      | ⟨0, _⟩ => rfl
      | ⟨1, _⟩ => rfl

theorem Clip.trackFor?_not (clip : Clip) (flipped : Bool) :
    clip.trackFor? (!flipped) slot = clip.trackFor? flipped slot.opposite := by
  cases slot with
  | body => rfl
  | head => rfl
  | hand side =>
      match side with
      | ⟨0, _⟩ => cases flipped <;> rfl
      | ⟨1, _⟩ => cases flipped <;> rfl

end Opposite

namespace Playback

variable (playback : Playback) (placement : Placement) (procedural : Pose)

theorem sampleLimb_mirrored (relative : Bool) (track : Option Track) (limb : LimbPose) :
    (playback.sampleLimb placement.mirrored relative track limb.mirrored).Same
      (playback.sampleLimb placement relative track limb).mirrored := by
  cases track with
  | none => exact .refl _
  | some track => exact track.sample_mirrored placement relative limb (playback.progress track)

/-- No mirror changes the scale of a limb. -/
theorem sampleLimb_mirrored_scale (relative : Bool) (track : Option Track) (limb : LimbPose) :
    (playback.sampleLimb placement.mirrored relative track limb.mirrored).scale =
      (playback.sampleLimb placement relative track limb).scale := by
  cases track <;> rfl

theorem sample_mirrored_limb (slot : Slot) :
    (playback.sample placement.mirrored procedural.mirrored).limb slot =
      playback.sampleLimb placement.mirrored (slot.opposite.isHand && playback.clip.relativeHands)
        (playback.clip.trackFor? placement.flipped slot.opposite)
        (procedural.limb slot.opposite).mirrored := by
  have flipped : placement.mirrored.flipped = !placement.flipped := rfl
  rw [sample_limb, Pose.limb_mirrored, flipped, Clip.trackFor?_not, Slot.isHand_opposite]

/-- For a mirrored character, with its procedural pose and its aim in the mirror, a playback
gives the mirror image of its pose: positions and rotations are those of the other side,
numerically, and scales and shapes stay with their limbs, of which the hands have changed
places.  It does not matter which of the two characters is the mirrored one. -/
theorem mirrored_character_shows_mirrored_pose :
    let shown := playback.sample placement procedural
    let mirror := playback.sample placement.mirrored procedural.mirrored
    mirror.Same shown.mirrored ∧
      ∀ slot, (mirror.limb slot).scale = (shown.mirrored.limb slot).scale := by
  intro shown mirror
  constructor
  · apply Pose.same_of_limbs
    intro slot
    rw [sample_mirrored_limb, Pose.limb_mirrored, sample_limb]
    exact playback.sampleLimb_mirrored placement _ _ _
  · intro slot
    rw [sample_mirrored_limb, Pose.limb_mirrored, sample_limb]
    exact playback.sampleLimb_mirrored_scale placement _ _ _

end Playback

end LimbAnimation
