import LimbAnimation.Proofs.Playback.Reachable
import LimbAnimation.Proofs.Single.Arithmetic

/-!
# Idle animators

While nothing plays, the weight of the animation falls with time, unless somebody
else forbids mix transitions: additional restrictions pin the weight just as those of
a playback do, and a pose that was fading comes back at once.
-/

namespace LimbAnimation

def Restrictions.forbidsMix (set : Restrictions) : Bool :=
  set.includes Restriction.preventMixTransition.set

theorem Restrictions.empty_union (set : Restrictions) : empty ∪ set = set := by
  show Restrictions.mk (0#32 ||| set.bits) = set
  rw [BitVec.zero_or]

namespace Animator

variable {animator : Animator}

theorem currentRestrictions_idle (idle : animator.stack.main? = none) :
    animator.currentRestrictions = animator.additional := by
  rw [currentRestrictions, idle]
  exact Restrictions.empty_union animator.additional

theorem pull_idle (idle : animator.stack.main? = none) :
    animator.pull = if animator.additional.forbidsMix then .pinned else .toProcedural := by
  rw [pull, currentRestrictions_idle idle, idle]
  rfl

section Weight

variable {weight seconds : Single}

theorem step_not_negative (finite : seconds.isFinite = true) (nonnegative : 0 ≤ seconds)
    (window : Single) : ¬ (if 0 < window then seconds / window else 1) < (0 : Single) := by
  split
  next positive => exact Single.div_not_negative finite nonnegative positive
  next => exact Single.not_lt_of_le Single.inUnit_one.nonnegative

theorem pulledWeight_toProcedural (ranged : weight.isNaN = true ∨ Single.InUnit weight)
    (finite : seconds.isFinite = true) (nonnegative : 0 ≤ seconds) (window : Single) :
    ¬ weight < Blend.pulledWeight weight seconds window .toProcedural := by
  rcases ranged with isNaN | inUnit
  · exact Single.not_lt_of_isNaN isNaN
  · exact Single.not_lt_clampUnit inUnit
      (Single.not_lt_add_neg inUnit.isFinite (step_not_negative finite nonnegative window))

end Weight

/-- While nothing plays, an update does not raise the weight of the animation, unless
the additional restrictions forbid mix transitions; then the weight is one. -/
theorem idle_weight_falls_or_is_pinned {seconds : Single} (reachable : animator.Reachable)
    (idle : animator.stack.main? = none) (finite : seconds.isFinite = true)
    (nonnegative : 0 ≤ seconds) (procedural : Pose) :
    let next := (animator.update seconds procedural).animator
    (animator.additional.forbidsMix = false → ¬ animator.blend.weight < next.blend.weight) ∧
      (animator.additional.forbidsMix = true → next.blend.weight = 1) := by
  intro next
  have pulled : next.blend.weight = Blend.pulledWeight animator.blend.weight seconds
      animator.transitionWindow animator.pull := rfl
  rw [pulled, pull_idle idle]
  constructor
  · intro free
    rw [free]
    exact pulledWeight_toProcedural reachable.weight_ranged finite nonnegative _
  · intro forbidden
    rw [forbidden]
    exact Single.clampUnit_of_inUnit Single.inUnit_one

/-- A clip of a second that moves nothing. -/
def restingClip : Clip := ⟨⟨"rest", "guard"⟩, none, none, [], .empty, 1, false, false⟩

/-- An animator that was cleared when the weight of its animation was a quarter. -/
def clearedEarly : Animator :=
  (((start .standard).play restingClip 1).update (.ofRatio false 1 20) .rest).animator.clear

theorem reachable_clearedEarly : clearedEarly.Reachable :=
  .after (.after (.after (.start .standard) (.play restingClip 1))
    (.update (.ofRatio false 1 20) .rest)) .clear

theorem clearedEarly_weight_falls :
    let seconds : Single := .ofRatio false 1 20
    let next := (clearedEarly.update seconds .rest).animator
    clearedEarly.Reachable ∧ clearedEarly.stack.main? = none ∧ seconds.isFinite = true ∧
      0 ≤ seconds ∧ clearedEarly.additional.forbidsMix = false ∧
      0 < clearedEarly.blend.weight ∧ ¬ clearedEarly.blend.weight < next.blend.weight := by
  intro seconds next
  have idle : clearedEarly.stack.main? = none := by decide +kernel
  have finite : seconds.isFinite = true := by decide +kernel
  have nonnegative : 0 ≤ seconds := by decide +kernel
  have free : clearedEarly.additional.forbidsMix = false := by decide +kernel
  refine ⟨reachable_clearedEarly, idle, finite, nonnegative, free, by decide +kernel, ?_⟩
  exact (idle_weight_falls_or_is_pinned reachable_clearedEarly idle finite nonnegative .rest).1 free

/-- With mix transitions forbidden from outside, the pose that is held from the
cleared playback is back at full weight. -/
theorem cleared_weight_rises_when_forbidden :
    let animator := clearedEarly.after (.restrict Restriction.preventMixTransition.set)
    let seconds : Single := .ofRatio false 1 20
    let next := (animator.update seconds .rest).animator
    animator.Reachable ∧ animator.stack.main? = none ∧ animator.held.isSome = true ∧
      seconds.isFinite = true ∧ 0 ≤ seconds ∧ animator.blend.weight = .ofRatio false 1 4 ∧
      next.blend.weight = 1 ∧ animator.blend.weight < next.blend.weight :=
  ⟨reachable_clearedEarly.after _, by decide +kernel⟩

end Animator

end LimbAnimation
