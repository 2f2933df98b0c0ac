import LimbAnimation.Proofs.Numbers
import LimbAnimation.Proofs.Playback.Easing
import LimbAnimation.Proofs.Playback.Idle
import LimbAnimation.Proofs.Playback.Push
import LimbAnimation.Proofs.Playback.Stack
import LimbAnimation.Proofs.Single.UnitInterval
import Mathlib.Data.List.Induction

/-!
# Fading out

After a clear, the pose that was held then is blended with the character's own one by a
weight that falls.  Nobody leaves the stack any more, and when the weight is zero, the
character's own pose is all there is.
-/

namespace LimbAnimation

namespace Single

section Zero

variable {weight step : Single}

/-- The quotient of a time by a window that may be infinite. -/
theorem div_isNaN_of_isFinite {left right : Single} (finite : left.isFinite = true)
    (positive : 0 < right) : (left / right).isNaN = false := by
  by_cases rightFinite : right.isFinite = true
  · exact div_isNaN (isNaN_of_isFinite finite) rightFinite positive
  · obtain rfl := eq_infinite_of_nonnegative (le_of_lt positive) rightFinite
    obtain ⟨rank, leftAt⟩ := isFinite_iff.mp finite
    obtain ⟨negative, magnitude, fits, rfl, _⟩ := leftAt.exists_eq
    rfl

theorem equals_zero_of_between {value : Single} (notBelow : ¬ value < 0) (notAbove : ¬ 0 < value)
    (isNumber : value.isNaN = false) : value.equals 0 = true := by
  obtain ⟨rank, ranked⟩ := exists_rank isNumber
  have atLeast : ¬ rank < 0 := fun less =>
    notBelow (lt_iff.mpr ⟨rank, 0, ranked, rank?_zero, less⟩)
  have atMost : ¬ 0 < rank := fun less =>
    notAbove (lt_iff.mpr ⟨0, rank, rank?_zero, ranked, less⟩)
  exact equals_iff.mpr ⟨rank, 0, ranked, rank?_zero, by omega⟩

theorem clampUnit_equals_zero {value : Single} (isNumber : value.isNaN = false)
    (notAbove : ¬ 0 < value) : value.clampUnit.equals 0 = true := by
  rcases clampUnit_cases value with ⟨same, notBelow, _⟩ | ⟨zero, _⟩ | ⟨_, above⟩
  · rw [same]
    exact equals_zero_of_between notBelow notAbove isNumber
  · rw [zero]
    exact zero_equals_zero
  · obtain ⟨one, rank, oneRanked, ranked, less⟩ := lt_iff.mp above
    cases rank?_one.symm.trans oneRanked
    have positive : (0 : Int) < unitsPerOne := by decide
    exact absurd (lt_iff.mpr ⟨0, rank, rank?_zero, ranked, by omega⟩) notAbove

/-- What is taken away may be infinite. -/
theorem not_positive_add_neg (inUnit : InUnit weight) (whole : 1 ≤ step) :
    ¬ 0 < weight + -step := by
  obtain ⟨weightRank, weightAt⟩ := isFinite_iff.mp inUnit.isFinite
  by_cases stepFinite : step.isFinite = true
  · obtain ⟨stepRank, stepAt⟩ := isFinite_iff.mp stepFinite
    obtain ⟨oneRank, oneAt⟩ := isFinite_iff.mp inUnit_one.isFinite
    have atMostOne := (weightAt.le_iff oneAt).mp inUnit.atMostOne
    have atLeastOne := (oneAt.le_iff stepAt).mp whole
    intro positive
    obtain ⟨zero, rank, zeroRanked, ranked, less⟩ := lt_iff.mp positive
    cases rank?_zero.symm.trans zeroRanked
    cases (rank?_add weightAt stepAt.neg).symm.trans ranked
    have nothing : Fits (0 : Int).natAbs := fits_zero
    have kept := nothing.roundedRank_le (show weightRank + -stepRank ≤ 0 by omega)
    omega
  · obtain rfl := eq_infinite_of_nonnegative (le_trans inUnit_one.nonnegative whole) stepFinite
    obtain ⟨negative, magnitude, fits, rfl, _⟩ := weightAt.exists_eq
    exact lt_asymm infinite_negative

end Zero

end Single

open Single (InUnit)

theorem easeInOut_isNaN {value : Single} (isNaN : value.isNaN = true) :
    (easeInOut value).isNaN = true := by
  cases value with
  | nan negative payload inRange => rfl
  | infinite negative => cases isNaN
  | finite negative magnitude fits => cases isNaN

theorem easeInOut_equals_zero {value : Single} (inUnit : InUnit value)
    (zero : value.equals 0 = true) : (easeInOut value).equals 0 = true := by
  obtain ⟨rank, doubledAt⟩ := Single.isFinite_iff.mp (two_mul_isFinite inUnit)
  rw [easeInOut_of_inUnit inUnit, if_pos (Single.lt_half_of_equals_zero zero)]
  have product := Single.rank?_mul_zero doubledAt (Single.finiteAt_of_equals_zero zero)
  exact Single.FiniteAt.equals_zero ⟨product, Single.fits_zero⟩

namespace Blend

variable {weight seconds : Single}

theorem fall_isNaN (finite : seconds.isFinite = true) (window : Single) :
    (if 0 < window then seconds / window else 1).isNaN = false := by
  split
  next positive => exact Single.div_isNaN_of_isFinite finite positive
  next => exact Single.inUnit_one.isNaN

theorem fallen_isNaN (inUnit : InUnit weight) (finite : seconds.isFinite = true)
    (window : Single) :
    (weight + -(if 0 < window then seconds / window else 1)).isNaN = false := by
  rw [Single.add_isNaN (.inr inUnit.isFinite), inUnit.isNaN, Single.neg_isNaN,
    fall_isNaN finite window]
  rfl

theorem fallen_inUnit (inUnit : InUnit weight) (finite : seconds.isFinite = true)
    (window : Single) : InUnit (pulledWeight weight seconds window .toProcedural) :=
  Single.clampUnit_inUnit (fallen_isNaN inUnit finite window)

/-- A weight of zero stays zero. -/
theorem fallen_equals_zero (inUnit : InUnit weight) (zero : weight.equals 0 = true)
    (finite : seconds.isFinite = true) (nonnegative : 0 ≤ seconds) (window : Single) :
    (pulledWeight weight seconds window .toProcedural).equals 0 = true := by
  apply Single.clampUnit_equals_zero (fallen_isNaN inUnit finite window)
  have notRaised := Single.not_lt_add_neg inUnit.isFinite
    (Animator.step_not_negative finite nonnegative window)
  apply Single.not_lt_trans inUnit.isNaN _ notRaised
  intro positive
  obtain ⟨rank, rankOfWeight, zeroRanked, ranked, less⟩ := Single.lt_iff.mp positive
  cases Single.rank?_zero.symm.trans zeroRanked
  cases (Single.finiteAt_of_equals_zero zero).ranked.symm.trans ranked
  exact Int.lt_irrefl _ less

/-- A whole window brings the weight to zero at once. -/
theorem fallen_equals_zero_of_window {window : Single} (inUnit : InUnit weight)
    (finite : seconds.isFinite = true) (positive : 0 < window) (whole : window ≤ seconds) :
    (pulledWeight weight seconds window .toProcedural).equals 0 = true := by
  have isNumber := fallen_isNaN inUnit finite window
  rw [if_pos positive] at isNumber
  rw [pulledWeight, if_pos positive]
  exact Single.clampUnit_equals_zero isNumber
    (Single.not_positive_add_neg inUnit (Single.one_le_div whole positive finite))

end Blend

namespace Animator

/-- A request that pushes nothing; and if it is an update, its time is finite and not
negative. -/
def Request.Quiet : Request → Prop
  | .push _ => False
  | .play _ _ => False
  | .restack stack => stack.playbacks = []
  | .update seconds _ => seconds.isFinite = true ∧ 0 ≤ seconds
  | _ => True

/-- The pose that is shown has been blended with the held one. -/
theorem Reachable.pose_of_held {animator : Animator} (reachable : Reachable animator)
    {held : Pose} (holds : animator.held = some held) :
    ∃ procedural : Pose,
      animator.pose = procedural.blend held (easeInOut animator.blend.weight) := by
  induction reachable generalizing held with
  | start timing => cases holds
  | @after animator _ request ih =>
      have push : ∀ playback, (animator.push playback).held = some held →
          ∃ procedural : Pose, animator.pose =
            procedural.blend held (easeInOut animator.blend.weight) := by
        intro playback pushed
        apply ih
        rw [Animator.push] at pushed
        dsimp only at pushed
        split at pushed
        · cases pushed
        · exact pushed
      cases request with
      | update seconds procedural =>
          have shown : (animator.sample? procedural).or animator.held = some held := holds
          refine ⟨procedural, ?_⟩
          simp only [Animator.after, update, shown]
          rfl
      | push playback => exact push playback holds
      | play clip speed => exact push (.start animator.nextId clip speed) holds
      | _ => exact ih holds

/-- The weight is a number if the pose that it has led to is finite. -/
theorem Reachable.weight_inUnit {animator : Animator} (reachable : Reachable animator)
    (finite : AllFinite animator.pose) {held : Pose} (holds : animator.held = some held) :
    InUnit animator.blend.weight := by
  rcases reachable.weight_ranged with isNaN | inUnit
  · obtain ⟨procedural, blended⟩ := reachable.pose_of_held holds
    have member : animator.pose.body.rotation ∈ singles animator.pose := by
      simp [HasNumbers.singles]
    have rotation := finite _ member
    have lost := Single.blend_isFinite_of_isNaN procedural.body.rotation held.body.rotation
      (easeInOut_isNaN isNaN)
    rw [blended] at rotation
    exact absurd (rotation.symm.trans lost) Bool.noConfusion
  · exact inUnit

theorem Reachable.run {animator : Animator} (reachable : Reachable animator)
    (requests : List Request) : Reachable (animator.run requests) := by
  induction requests generalizing animator with
  | nil => exact reachable
  | cons request rest ih => exact ih (reachable.after request)

/-- An animator after quiet requests that have followed a clear. -/
structure Rests (cleared now : Animator) : Prop where
  nobody : now.stack.playbacks = []
  held : now.held = cleared.held
  transitionWindow : now.transitionWindow = cleared.transitionWindow
  weight : InUnit cleared.blend.weight → InUnit now.blend.weight

namespace Rests

variable {cleared now : Animator}

theorem idle (rests : Rests cleared now) : now.stack.main? = none := by
  apply Stack.main?_eq_none_iff.mpr
  rw [rests.nobody]
  intro playback member
  cases member

theorem sample? (rests : Rests cleared now) (procedural : Pose) :
    now.sample? procedural = none := by
  rw [Animator.sample?, rests.idle]

theorem advance (rests : Rests cleared now) (seconds : Single) :
    (now.stack.advance seconds).left = [] ∧ (now.stack.advance seconds).stack.playbacks = [] := by
  rw [Stack.advance_left, Stack.advance_playbacks, rests.nobody]
  exact ⟨rfl, rfl⟩

theorem after (rests : Rests cleared now) {request : Animator.Request} (quiet : request.Quiet) :
    Rests cleared (now.after request) := by
  obtain ⟨nobody, held, transitionWindow, weight⟩ := rests
  cases request with
  | push playback => exact quiet.elim
  | play clip speed => exact quiet.elim
  | clear => exact ⟨rfl, held, transitionWindow, weight⟩
  | stop id =>
      refine ⟨?_, held, transitionWindow, weight⟩
      show modifyFirst _ _ now.stack.playbacks = []
      rw [nobody]
      rfl
  | restack stack => exact ⟨quiet, held, transitionWindow, weight⟩
  | update seconds procedural =>
      have rests : Rests cleared now := ⟨nobody, held, transitionWindow, weight⟩
      refine ⟨(rests.advance seconds).2, ?_, transitionWindow, fun inUnit => ?_⟩
      · show (now.sample? procedural).or now.held = cleared.held
        rw [rests.sample? procedural, Option.none_or, held]
      · show InUnit (Blend.pulledWeight now.blend.weight seconds now.transitionWindow now.pull)
        rw [pull_idle rests.idle]
        split
        · exact Single.clampUnit_inUnit Single.inUnit_one.isNaN
        · exact Blend.fallen_inUnit (weight inUnit) quiet.1 _
  | _ => exact ⟨nobody, held, transitionWindow, weight⟩

end Rests

theorem clear_rests (animator : Animator) : Rests animator animator.clear :=
  ⟨rfl, rfl, rfl, id⟩

theorem run_rests {animator : Animator} {requests : List Request}
    (quiet : ∀ request ∈ requests, request.Quiet) :
    Rests animator (animator.clear.run requests) := by
  induction requests using List.reverseRecOn with
  | nil => exact clear_rests animator
  | append_singleton requests request ih =>
      rw [List.forall_mem_append, List.forall_mem_singleton] at quiet
      rw [run_concat]
      exact (ih quiet.1).after quiet.2

section FadeOut

/-- The pose after an update is the character's own one, blended with what the animations
show, if there is anything. -/
theorem update_pose (animator : Animator) (seconds : Single) (procedural : Pose) :
    (animator.update seconds procedural).animator.pose =
      ((animator.sample? procedural).or animator.held).elim procedural
        (procedural.blend · (animator.steppedBlend seconds).easedWeight) := by
  unfold update
  dsimp only
  cases (animator.sample? procedural).or animator.held with
  | none => rfl
  | some pose => rfl

variable {animator : Animator} {requests : List Request} {seconds : Single}

/-- From a clear on, as long as nothing is pushed, an update for which nobody else forbids
mix transitions reports no end and does not raise the weight.  Its pose is the one of the
character, blended by the eased weight with the pose that was held when the stack was
cleared, or that one itself if none was.  A whole window brings the weight to zero, where it
stays, and with a weight of zero the pose is the character's own one. -/
theorem clear_fades_from_held_pose (reachable : animator.Reachable)
    (finite : AllFinite animator.pose) (quiet : ∀ request ∈ requests, request.Quiet)
    (free : (animator.clear.run requests).additional.forbidsMix = false)
    (time : seconds.isFinite = true) (nonnegative : 0 ≤ seconds) (procedural : Pose) :
    let now := animator.clear.run requests
    let update := now.update seconds procedural
    let next := update.animator
    update.ended = [] ∧ ¬ now.blend.weight < next.blend.weight ∧
      next.blend.easedWeight = easeInOut next.blend.weight ∧
      (animator.held = none → next.pose = procedural) ∧
      ∀ held, animator.held = some held →
        next.pose = procedural.blend held next.blend.easedWeight ∧
        (0 < animator.transitionWindow → animator.transitionWindow ≤ seconds →
          next.blend.weight.equals 0 = true) ∧
        (now.blend.weight.equals 0 = true → next.blend.weight.equals 0 = true) ∧
        (next.blend.weight.equals 0 = true → procedural.spans held = true →
          next.pose.equals procedural = true) := by
  intro now update next
  have rests : Rests animator now := run_rests quiet
  have fallen : next.blend.weight = Blend.pulledWeight now.blend.weight seconds
      animator.transitionWindow .toProcedural := by
    have pulled : next.blend.weight = Blend.pulledWeight now.blend.weight seconds
      now.transitionWindow now.pull := rfl
    rw [pulled, pull_idle rests.idle, if_neg (by rw [free]; exact Bool.noConfusion),
      rests.transitionWindow]
  have heldNow : (now.sample? procedural).or now.held = animator.held := by
    rw [rests.sample? procedural, Option.none_or, rests.held]
  have shown : ∀ held, animator.held = held →
      next.pose = held.elim procedural (procedural.blend · next.blend.easedWeight) := by
    intro held same
    rw [← same, ← heldNow]
    exact update_pose now seconds procedural
  refine ⟨?_, ?_, rfl, ?_, ?_⟩
  · show (now.stack.advance seconds).left.map Ended.ofPlayback = []
    rw [(rests.advance seconds).1]
    rfl
  · have reached : now.Reachable := (reachable.after .clear).run requests
    rw [fallen]
    exact pulledWeight_toProcedural reached.weight_ranged time nonnegative _
  · exact shown none
  · intro held holds
    have inUnit : InUnit now.blend.weight := rests.weight (reachable.weight_inUnit finite holds)
    have inUnitNext : InUnit next.blend.weight := by
      rw [fallen]
      exact Blend.fallen_inUnit inUnit time _
    have blended : next.pose = procedural.blend held next.blend.easedWeight :=
      shown (some held) holds
    refine ⟨blended, ?_, ?_, ?_⟩
    · intro positive whole
      rw [fallen]
      exact Blend.fallen_equals_zero_of_window inUnit time positive whole
    · intro zero
      rw [fallen]
      exact Blend.fallen_equals_zero inUnit zero time nonnegative _
    · intro zero spans
      rw [blended]
      exact Pose.blend_equals_start (easeInOut_equals_zero inUnitNext zero) spans

/-- The character stands at the place 10 and is cleared when the weight is a quarter.  After a
twentieth of a second the pose is still held; a quarter of a second is more than the window. -/
theorem standing_fades_out :
    let seconds : Single := .ofRatio false 1 20
    let animator := (((start .standard).play (standing 10) 1).update seconds .rest).animator
    let requests : List Request := [.setClock false, .update seconds .rest]
    let now := animator.clear.run requests
    let update := now.update (.ofRatio false 1 4) .rest
    animator.Reachable ∧ AllFinite animator.pose ∧ (∀ request ∈ requests, request.Quiet) ∧
      0 < animator.blend.weight ∧ animator.held.isSome = true ∧ now.held = animator.held ∧
      update.ended = [] ∧ update.animator.pose.equals .rest = true := by
  intro seconds animator requests now update
  have reachable : animator.Reachable :=
    .after (.after (.start .standard) (.play (standing 10) 1)) (.update seconds .rest)
  obtain ⟨frame, finite, positive, present, free, time, forward, window, windowPositive, spans⟩ :
      (seconds.isFinite = true ∧ 0 ≤ seconds) ∧ AllFinite animator.pose ∧
        0 < animator.blend.weight ∧ animator.held.isSome = true ∧
        now.additional.forbidsMix = false ∧
        (Single.ofRatio false 1 4).isFinite = true ∧ 0 ≤ Single.ofRatio false 1 4 ∧
        animator.transitionWindow ≤ .ofRatio false 1 4 ∧ 0 < animator.transitionWindow ∧
        (animator.held.all fun held => Pose.rest.spans held) = true := by decide +kernel
  have quiet : ∀ request ∈ requests, request.Quiet := by
    rw [List.forall_mem_cons, List.forall_mem_singleton]
    exact ⟨trivial, frame⟩
  obtain ⟨held, holds⟩ := Option.isSome_iff_exists.mp present
  rw [holds, Option.all_some] at spans
  obtain ⟨nobody, _, _, _, blends⟩ :=
    clear_fades_from_held_pose reachable finite quiet free time forward .rest
  obtain ⟨_, vanishes, _, shown⟩ := blends held holds
  exact ⟨reachable, finite, quiet, positive, present, (run_rests quiet).held, nobody,
    shown (vanishes windowPositive window) spans⟩

end FadeOut

end Animator

end LimbAnimation
