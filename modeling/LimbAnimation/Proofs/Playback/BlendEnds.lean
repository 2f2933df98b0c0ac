import LimbAnimation.Proofs.Playback.FadeOut
import LimbAnimation.Proofs.Playback.Limbs
import LimbAnimation.Proofs.Single.Differences
import LimbAnimation.Proofs.Single.Nearest

/-!
# The ends of a blend

A blend begins at its start.  At its end the rounded difference has been added to the start, so
each number of a limb arrives at the one of the goal as rounding allows: exactly where the
difference is not rounded, and nearly everywhere.  A shape has nothing to round.
-/

namespace LimbAnimation

namespace Single

/-- What is shown at the end of the way from a start to a goal, as for their ranks. -/
def ArrivesFrom (start goal shown : Single) : Prop :=
  ∃ startRank goalRank shownRank, FiniteAt start startRank ∧ FiniteAt goal goalRank ∧
    shown.rank? = some shownRank ∧ Arrives startRank goalRank shownRank

section Ends

variable {start goal : Single}

theorem goal_isFinite_of_spans (spans : start.spans goal = true) : goal.isFinite = true := by
  obtain ⟨rank, startAt⟩ := isFinite_iff.mp (isFinite_of_spans spans)
  obtain ⟨negative, magnitude, fits, rfl, _⟩ := startAt.exists_eq
  cases goal with
  | finite negative' magnitude' fits' => rfl
  | nan negative' payload inRange => cases (show false = true from spans)
  | infinite negative' => cases (show false = true from spans)

theorem blend_one (spans : start.spans goal = true) :
    Blendable.blend start goal 1 = start + (goal - start) := by
  show start + (goal - start) * 1 = start + (goal - start)
  rw [mul_one spans]

theorem blend_one_arrives (spans : start.spans goal = true) :
    start.ArrivesFrom goal (Blendable.blend start goal 1) := by
  obtain ⟨startRank, startAt⟩ := isFinite_iff.mp (isFinite_of_spans spans)
  obtain ⟨goalRank, goalAt⟩ := isFinite_iff.mp (goal_isFinite_of_spans spans)
  obtain ⟨difference, differenceAt⟩ := isFinite_iff.mp spans
  -- The difference has been rounded already when it is added, and the sum is rounded again.
  have rounded : difference = roundedRank (goalRank - startRank) :=
    Option.some.inj (differenceAt.ranked.symm.trans (rank?_sub goalAt startAt))
  subst rounded
  refine ⟨startRank, goalRank, _, startAt, goalAt, ?_,
    arrives startAt.fits goalAt.fits differenceAt.fits.bounded⟩
  rw [blend_one spans]
  exact rank?_add startAt differenceAt

theorem eq_one_of_equals {value : Single} (same : value.equals 1 = true) : value = 1 :=
  eq_one_of_between (le_of_equals ((equals_comm 1 value).trans same)) (le_of_equals same)

theorem inUnit_of_equals_zero {value : Single} (zero : value.equals 0 = true) : InUnit value where
  nonnegative := le_of_equals ((equals_comm 0 value).trans zero)
  atMostOne := le_trans (le_of_equals zero) inUnit_zero.atMostOne

theorem not_one_lt_half : ¬ (1 : Single) < half := not_lt_of_le inUnit_half.atMostOne

end Ends

end Single

/-- Names the numbers of a limb. -/
inductive Component where
  | x
  | y
  | rotation
  | scaleX
  | scaleY
  deriving DecidableEq

def LimbPose.number (limb : LimbPose) : Component → Single
  | .x => limb.position.x
  | .y => limb.position.y
  | .rotation => limb.rotation
  | .scaleX => limb.scale.x
  | .scaleY => limb.scale.y

namespace LimbPose

variable {start goal : LimbPose}

theorem number_blend (start goal : LimbPose) (weight : Single) (component : Component) :
    (start.blend goal weight).number component =
      Blendable.blend (start.number component) (goal.number component) weight := by
  cases component <;> rfl

theorem shape_blend_one (start goal : LimbPose) : (start.blend goal 1).shape = goal.shape := by
  simp only [blend, if_neg Single.not_one_lt_half]

theorem number_spans (spans : start.spans goal = true) (component : Component) :
    (start.number component).spans (goal.number component) = true := by
  simp only [LimbPose.spans, Vec.spans, Bool.and_eq_true] at spans
  obtain ⟨⟨⟨x, y⟩, rotation⟩, scaleX, scaleY⟩ := spans
  cases component with
  | x => exact x
  | y => exact y
  | rotation => exact rotation
  | scaleX => exact scaleX
  | scaleY => exact scaleY

end LimbPose

namespace Pose

variable {start goal : Pose}

theorem limb_blend (start goal : Pose) (weight : Single) (slot : Slot) :
    (start.blend goal weight).limb slot = (start.limb slot).blend (goal.limb slot) weight := by
  cases slot with
  | body => rfl
  | head => rfl
  | hand side =>
      simp only [limb]
      split <;> rfl

theorem limb_spans (spans : start.spans goal = true) (slot : Slot) :
    (start.limb slot).spans (goal.limb slot) = true := by
  simp only [Pose.spans, Bool.and_eq_true] at spans
  obtain ⟨⟨⟨body, head⟩, first⟩, second⟩ := spans
  cases slot with
  | body => exact body
  | head => exact head
  | hand side =>
      simp only [limb]
      split
      next => exact first
      next => exact second

end Pose

namespace Animator

theorem steppedBlend_pinned {animator : Animator} (pinned : animator.pull = .pinned)
    (seconds : Single) : (animator.steppedBlend seconds).weight = 1 := by
  show Blend.pulledWeight _ _ _ animator.pull = 1
  rw [pinned]
  exact Single.clampUnit_of_inUnit Single.inUnit_one

/-- Let no difference between two poses overflow.  The blend of them shows the first one when
the weight is zero.  When it is one, it shows the shapes of the second one, and each number
arrives at the one of the second as the ranks tell: an infinity counts as `2 ^ 128` there.  So
does an update whose procedural pose is the first one while the second one is held: it shows
the procedural pose with no weight on animations, and with all of it, as when mix transitions
are forbidden, the blend with weight one. -/
theorem blend_reaches_ends_unless_rounded {start goal : Pose} (spans : start.spans goal = true) :
    (start.blend goal 0).equals start = true ∧
      (∀ slot : Slot, ((start.blend goal 1).limb slot).shape = (goal.limb slot).shape ∧
        ∀ component : Component, ((start.limb slot).number component).ArrivesFrom
          ((goal.limb slot).number component)
          (((start.blend goal 1).limb slot).number component)) ∧
      ∀ (animator : Animator) (seconds : Single),
        let next := (animator.update seconds start).animator
        next.held = some goal →
          (next.blend.weight.equals 0 = true → next.pose.equals start = true) ∧
            (next.blend.weight.equals 1 = true → next.pose = start.blend goal 1) ∧
            (animator.pull = .pinned → next.blend.weight.equals 1 = true) := by
  refine ⟨Pose.blend_zero_equals spans, ?_, ?_⟩
  · intro slot
    rw [Pose.limb_blend]
    refine ⟨LimbPose.shape_blend_one _ _, ?_⟩
    intro component
    rw [LimbPose.number_blend]
    exact Single.blend_one_arrives (LimbPose.number_spans (Pose.limb_spans spans slot) component)
  · intro animator seconds next holds
    have held : (animator.sample? start).or animator.held = some goal := holds
    have pose : next.pose = start.blend goal (easeInOut next.blend.weight) := by
      rw [update_pose, held]
      rfl
    refine ⟨?_, ?_, ?_⟩
    · intro zero
      have eased := easeInOut_equals_zero (Single.inUnit_of_equals_zero zero) zero
      rw [pose]
      exact Pose.blend_equals_start eased spans
    · intro whole
      rw [pose, Single.eq_one_of_equals whole]
      rfl
    · intro pinned
      have pulled : next.blend.weight = 1 := steppedBlend_pinned pinned seconds
      rw [pulled]
      exact Single.equals_self Single.inUnit_one.isNaN

/-- The pose with the body at a place along the ground. -/
def standingAt (place : Single) : Pose := { Pose.rest with body := ⟨⟨place, 0⟩, 0, .one, none⟩ }

/-- While mix transitions are forbidden, a playback at the place 3 is shown from the place 100
on by the blend with weight one. -/
theorem pinned_playback_arrives :
    let timing : Timing := ⟨1, .ofRatio false 1 4, 1⟩
    let animator : Animator :=
      { (start timing).play (standing 3) 1 with additional := Restriction.preventMixTransition.set }
    let next := (animator.update 1 (standingAt 100)).animator
    (standingAt 100).spans (standingAt 3) = true ∧ next.held = some (standingAt 3) ∧
      animator.pull = .pinned ∧ next.pose = (standingAt 100).blend (standingAt 3) 1 ∧
      (((standingAt 100).limb .body).number .x).ArrivesFrom (((standingAt 3).limb .body).number .x)
        ((next.pose.limb .body).number .x) := by
  intro timing animator next
  have spans : (standingAt 100).spans (standingAt 3) = true := by decide +kernel
  have holds : next.held = some (standingAt 3) := by decide +kernel
  have pinned : animator.pull = .pinned := by decide +kernel
  obtain ⟨_, ends, shows⟩ := blend_reaches_ends_unless_rounded spans
  obtain ⟨_, whole, forced⟩ := shows animator 1 holds
  have blended : next.pose = (standingAt 100).blend (standingAt 3) 1 := whole (forced pinned)
  have arrived := (ends .body).2 .x
  rw [← blended] at arrived
  exact ⟨spans, holds, pinned, blended, arrived⟩

/-- A tenth is missed on the way from the place 100. -/
theorem blend_misses_tenth :
    let tenth : Single := .ofRatio false 1 10
    (standingAt 100).spans (standingAt tenth) = true ∧
      ((standingAt 100).blend (standingAt tenth) 1).equals (standingAt tenth) = false := by
  decide +kernel

end Animator

end LimbAnimation
