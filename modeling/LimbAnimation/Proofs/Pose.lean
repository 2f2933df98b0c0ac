import LimbAnimation.Pose
import LimbAnimation.Proofs.Single.Arithmetic

/-!
# Blending poses

Poses are compared numerically, component by component, as numbers are.  A blend
begins at its start: with no weight on the goal it shows the start, as long as no
difference between the two overflows.  With a weight that is no number it shows nothing
that is one.
-/

namespace LimbAnimation

namespace Single

/-- Whether two numbers have a finite difference; then they are finite themselves. -/
def spans (start goal : Single) : Bool := (goal - start).isFinite

theorem isFinite_of_spans {start goal : Single} (spans : start.spans goal = true) :
    start.isFinite = true := by
  cases start with
  | finite negative magnitude fits => rfl
  | nan negative payload inRange => cases goal <;> cases (show false = true from spans)
  | infinite negative =>
      cases goal with
      | nan negative' payload inRange => cases (show false = true from spans)
      | finite negative' magnitude fits => cases (show false = true from spans)
      | infinite negative' =>
          cases negative <;> cases negative' <;> cases (show false = true from spans)

theorem lt_half_of_equals_zero {value : Single} (zero : value.equals 0 = true) : value < half := by
  obtain ⟨none, some, zeroRanked, halfRanked, less⟩ := lt_iff.mp half_positive
  cases rank?_zero.symm.trans zeroRanked
  exact lt_iff.mpr ⟨0, some, (finiteAt_of_equals_zero zero).ranked, halfRanked, less⟩

theorem blend_equals_start {start goal weight : Single} (nothing : weight.equals 0 = true)
    (spans : start.spans goal = true) :
    (Blendable.blend start goal weight).equals start = true := by
  obtain ⟨rank, startAt⟩ := isFinite_iff.mp (isFinite_of_spans spans)
  obtain ⟨difference, differenceAt⟩ := isFinite_iff.mp spans
  have added : FiniteAt ((goal - start) * weight) 0 :=
    ⟨rank?_mul_zero differenceAt (finiteAt_of_equals_zero nothing), fits_zero⟩
  refine equals_iff.mpr ⟨_, rank, rank?_add startAt added, startAt.ranked, ?_⟩
  rw [Int.add_zero, startAt.fits.roundedRank_eq]

theorem blend_isFinite_of_isNaN (start goal : Single) {weight : Single}
    (isNaN : weight.isNaN = true) : (Blendable.blend start goal weight).isFinite = false := by
  cases weight with
  | nan negative payload inRange =>
      have product : (goal - start) * nan negative payload inRange = quietNaN := by
        cases goal - start <;> rfl
      show (start + (goal - start) * nan negative payload inRange).isFinite = false
      rw [product]
      cases start <;> rfl
  | infinite negative => cases isNaN
  | finite negative magnitude fits => cases isNaN

end Single

namespace Vec

def spans (start goal : Vec) : Bool := start.x.spans goal.x && start.y.spans goal.y

theorem blend_equals_start {start goal : Vec} {weight : Single} (nothing : weight.equals 0 = true)
    (spans : start.spans goal = true) :
    (Blendable.blend start goal weight).equals start = true := by
  obtain ⟨x, y⟩ := Bool.and_eq_true_iff.mp spans
  exact Bool.and_eq_true_iff.mpr
    ⟨Single.blend_equals_start nothing x, Single.blend_equals_start nothing y⟩

end Vec

namespace LimbPose

/-- Numerically equal, with the same shape. -/
def equals (left right : LimbPose) : Bool :=
  left.position.equals right.position && left.rotation.equals right.rotation &&
    left.scale.equals right.scale && left.shape == right.shape

def spans (start goal : LimbPose) : Bool :=
  start.position.spans goal.position && start.rotation.spans goal.rotation &&
    start.scale.spans goal.scale

theorem blend_equals_start {start goal : LimbPose} {weight : Single}
    (nothing : weight.equals 0 = true) (spans : start.spans goal = true) :
    (start.blend goal weight).equals start = true := by
  have before : weight < Single.half := Single.lt_half_of_equals_zero nothing
  simp only [LimbPose.spans, Bool.and_eq_true] at spans
  obtain ⟨⟨position, rotation⟩, scale⟩ := spans
  simp only [equals, blend, if_pos before, Bool.and_eq_true, beq_self_eq_true, and_true]
  exact ⟨⟨Vec.blend_equals_start nothing position, Single.blend_equals_start nothing rotation⟩,
    Vec.blend_equals_start nothing scale⟩

end LimbPose

namespace Pose

/-- Numerically equal limb by limb, with the same shapes. -/
def equals (left right : Pose) : Bool :=
  left.body.equals right.body && left.head.equals right.head &&
    left.firstHand.equals right.firstHand && left.secondHand.equals right.secondHand

/-- Whether all components of two poses have finite differences. -/
def spans (start goal : Pose) : Bool :=
  start.body.spans goal.body && start.head.spans goal.head &&
    start.firstHand.spans goal.firstHand && start.secondHand.spans goal.secondHand

theorem blend_equals_start {start goal : Pose} {weight : Single} (nothing : weight.equals 0 = true)
    (spans : start.spans goal = true) : (start.blend goal weight).equals start = true := by
  simp only [Pose.spans, Bool.and_eq_true] at spans
  obtain ⟨⟨⟨body, head⟩, first⟩, second⟩ := spans
  simp only [equals, blend, Bool.and_eq_true]
  exact ⟨⟨⟨LimbPose.blend_equals_start nothing body, LimbPose.blend_equals_start nothing head⟩,
    LimbPose.blend_equals_start nothing first⟩, LimbPose.blend_equals_start nothing second⟩

theorem blend_zero_equals {start goal : Pose} (spans : start.spans goal = true) :
    (start.blend goal 0).equals start = true := blend_equals_start Single.zero_equals_zero spans

end Pose

end LimbAnimation
