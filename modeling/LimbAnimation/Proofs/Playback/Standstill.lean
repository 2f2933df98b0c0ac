import LimbAnimation.Proofs.Playback.Departures
import LimbAnimation.Proofs.Playback.FadeOut
import LimbAnimation.Proofs.Playback.Ramps
import LimbAnimation.Proofs.Playback.SameTime
import Mathlib.Data.List.Forall2

/-!
# Frames without length

An update by no time at all still takes off the stack what is over, forces the weight where
mix transitions are forbidden, and shows the main playback instead of a held pose.  But it
leaves nothing for a second one to do: every number that the second one computes is the one
that the first one left.
-/

namespace LimbAnimation

open Single (SameNumber FiniteAt InUnit)

namespace Single

/-- A clamped number stays when nothing is added and it is clamped again. -/
theorem clampUnit_add_zero {value zero : Single} (ranged : value.isNaN = true ∨ InUnit value)
    (zeroAt : FiniteAt zero 0) : SameNumber (value + zero).clampUnit value := by
  have kept : SameNumber value.clampUnit value := by
    rcases ranged with isNaN | inUnit
    · exact sameNumber_of_isNaN (by rwa [clampUnit_isNaN]) isNaN
    · rw [clampUnit_of_inUnit inUnit]
      exact .refl _
  exact (sameNumber_add_zero value zeroAt).clampUnit.trans kept

end Single

theorem easeInOut_same {value value' : Single} (same : SameNumber value value') :
    SameNumber (easeInOut value) (easeInOut value') := by
  have clamped := same.clampUnit
  have early := clamped.lt_iff_lt (SameNumber.refl Single.half)
  have rest : SameNumber (-2 * value.clampUnit + 2) (-2 * value'.clampUnit + 2) :=
    ((SameNumber.refl _).mul clamped).add_right 2
  unfold easeInOut
  dsimp only
  simp only [early]
  split
  · exact ((SameNumber.refl 2).mul clamped).mul clamped
  · exact (SameNumber.refl 1).sub ((rest.mul rest).div_right 2)

namespace Blend

/-- Numerically the same in all numbers. -/
structure Same (left right : Blend) : Prop where
  mix : SameNumber left.mix right.mix
  mixDuration : SameNumber left.mixDuration right.mixDuration
  weight : SameNumber left.weight right.weight
  easedWeight : SameNumber left.easedWeight right.easedWeight

/-- The mix stays in no time. -/
theorem stepMix_zero {blend : Blend} {speed : Single}
    (ranged : blend.mix.isNaN = true ∨ InUnit blend.mix)
    (duration : blend.mixDuration.isFinite = true ∧ 0 < blend.mixDuration)
    (finite : speed.isFinite = true) : SameNumber (blend.stepMix 0 speed).mix blend.mix := by
  have quotientAt := Single.zero_div_finiteAt Single.zero_finiteAt duration.1 duration.2
  have rateAt := Single.zero_mul_finiteAt quotientAt finite
  unfold stepMix
  rw [if_pos duration.2]
  exact Single.clampUnit_add_zero ranged rateAt

/-- The weight stays in no time, unless it is pinned. -/
theorem pulledWeight_zero {weight window : Single} (ranged : weight.isNaN = true ∨ InUnit weight)
    (usable : window.isFinite = true ∧ 0 < window) {pull : Pull} (free : pull ≠ .pinned) :
    SameNumber (pulledWeight weight 0 window pull) weight := by
  have stepAt := Single.zero_div_finiteAt Single.zero_finiteAt usable.1 usable.2
  unfold pulledWeight
  rw [if_pos usable.2]
  cases pull with
  | pinned => exact absurd rfl free
  | toAnimation => exact Single.clampUnit_add_zero ranged stepAt
  | toProcedural => exact Single.clampUnit_add_zero ranged stepAt.neg

/-- Whatever an update has made of the weight, the same pull changes nothing in no time. -/
theorem pulledWeight_pulledWeight (weight : Single) {window : Single}
    (usable : window.isFinite = true ∧ 0 < window) (pull : Pull) :
    SameNumber (pulledWeight (pulledWeight weight 0 window pull) 0 window pull)
      (pulledWeight weight 0 window pull) := by
  by_cases pinned : pull = .pinned
  · rw [pinned]
    exact .refl _
  · exact pulledWeight_zero (Animator.pulledWeight_ranged _ _ _ _) usable pinned

end Blend

namespace Stack

variable {stack : Stack}

theorem moved_zero_same (stack : Stack) {playback : Playback}
    (finite : playback.speed.isFinite = true) : (stack.moved 0 playback).Same playback := by
  refine ⟨rfl, rfl, rfl, ?_, rfl⟩
  unfold moved
  dsimp only
  split
  · exact Single.sameNumber_add_zero _ (Single.zero_mul_finiteAt Single.zero_finiteAt finite)
  · exact .refl _

/-- All speeds on the stack are finite. -/
def SpeedsFinite (stack : Stack) : Prop :=
  ∀ playback ∈ stack.playbacks, playback.speed.isFinite = true

instance (stack : Stack) : Decidable stack.SpeedsFinite :=
  inferInstanceAs (Decidable (∀ playback ∈ stack.playbacks, playback.speed.isFinite = true))

theorem isOver_moved_zero (speeds : stack.SpeedsFinite) {playback : Playback}
    (member : playback ∈ stack.playbacks) :
    (stack.moved 0 playback).isOver = playback.isOver :=
  (stack.moved_zero_same (speeds playback member)).isOver_eq

theorem mem_of_unfinished {index : Nat} {playback : Playback}
    (present : stack.unfinished[index]? = some playback) : playback ∈ stack.playbacks := by
  have member := List.mem_filter.mp (List.mem_of_getElem? present)
  exact List.mem_reverse.mp member.1

theorem advance_zero_speedsFinite (speeds : stack.SpeedsFinite) :
    (stack.advance 0).stack.SpeedsFinite := by
  intro playback member
  rw [advance_stack] at member
  obtain ⟨before, stays, rfl⟩ := List.mem_map.mp member
  exact speeds before (List.mem_filter.mp stays).1

/-- In no time nobody comes to an end: all that a step leaves is unfinished. -/
theorem advance_zero_unfinished (speeds : stack.SpeedsFinite) :
    ∀ playback ∈ (stack.advance 0).stack.playbacks, playback.isOver = false := by
  intro playback member
  rw [advance_stack] at member
  obtain ⟨before, stays, rfl⟩ := List.mem_map.mp member
  obtain ⟨member, unfinished⟩ := List.mem_filter.mp stays
  rw [isOver_moved_zero speeds member]
  simpa using unfinished

theorem filter_advance_zero (speeds : stack.SpeedsFinite) :
    ((stack.advance 0).stack.playbacks.filter fun playback => !playback.isOver) =
      (stack.advance 0).stack.playbacks := by
  apply List.filter_eq_self.mpr
  intro playback member
  rw [advance_zero_unfinished speeds playback member]
  rfl

theorem unfinished_advance_zero (speeds : stack.SpeedsFinite) :
    (stack.advance 0).stack.unfinished = stack.unfinished.map (stack.moved 0) := by
  rw [unfinished, List.filter_reverse, filter_advance_zero speeds, advance_stack,
    ← List.map_reverse, ← List.filter_reverse]
  rfl

/-- The main and the previous playback stay what they are. -/
theorem rel_unfinished_advance_zero (speeds : stack.SpeedsFinite) (index : Nat) :
    Option.Rel Playback.Same (stack.advance 0).stack.unfinished[index]?
      stack.unfinished[index]? := by
  rw [unfinished_advance_zero speeds, List.getElem?_map]
  cases present : stack.unfinished[index]? with
  | none => exact .none
  | some playback =>
      exact .some (stack.moved_zero_same (speeds playback (mem_of_unfinished present)))

/-- A second step in no time finds nobody to take off, and moves nobody. -/
theorem advance_advance_zero (speeds : stack.SpeedsFinite) :
    let once := (stack.advance 0).stack
    (once.advance 0).left = [] ∧
      List.Forall₂ Playback.Same (once.advance 0).stack.playbacks once.playbacks := by
  intro once
  constructor
  · rw [advance_left, List.reverse_eq_nil_iff, List.filter_eq_nil_iff]
    intro playback member
    rw [advance_zero_unfinished speeds playback member]
    exact Bool.false_ne_true
  · rw [advance_stack, filter_advance_zero speeds, List.forall₂_map_left_iff, List.forall₂_same]
    intro playback member
    exact once.moved_zero_same (advance_zero_speedsFinite speeds playback member)

end Stack

namespace Animator

/-- Two animators with the same playbacks to show, at the same time and in the same mix. -/
structure ShowSame (left right : Animator) : Prop where
  main : Option.Rel Playback.Same left.stack.main? right.stack.main?
  previous : Option.Rel Playback.Same left.stack.previous? right.stack.previous?
  mix : SameNumber left.blend.mix right.blend.mix
  transitionWindow : left.transitionWindow = right.transitionWindow
  additional : left.additional = right.additional
  placement : left.placement = right.placement

namespace ShowSame

variable {left right : Animator}

theorem currentRestrictions (same : ShowSame left right) :
    left.currentRestrictions = right.currentRestrictions := by
  have main := same.main
  unfold Animator.currentRestrictions
  rw [same.additional]
  generalize left.stack.main? = playing, right.stack.main? = playing' at main ⊢
  cases main with
  | none => rfl
  | some main => simp only [Option.map_some, main.restrictions_eq]

theorem pull (same : ShowSame left right) : left.pull = right.pull := by
  have main := same.main
  unfold Animator.pull
  rw [same.currentRestrictions, same.transitionWindow]
  generalize left.stack.main? = playing, right.stack.main? = playing' at main ⊢
  cases main with
  | none => rfl
  | @some first second main =>
      have early := main.timer.le_iff_le
        (SameNumber.refl (second.clip.duration - right.transitionWindow))
      simp only [main.clip, early]

theorem sample? (same : ShowSame left right) (procedural : Pose) :
    Option.Rel Pose.Same (left.sample? procedural) (right.sample? procedural) := by
  have main := same.main
  have previous := same.previous
  have complete := (SameNumber.refl 1).le_iff_le same.mix
  unfold Animator.sample?
  rw [same.placement]
  generalize left.stack.main? = playing, right.stack.main? = playing' at main ⊢
  cases main with
  | none => exact .none
  | some main =>
      have current := main.sample right.placement procedural
      simp only [complete]
      split
      · exact .some current
      · generalize left.stack.previous? = below, right.stack.previous? = below' at previous ⊢
        cases previous with
        | none => exact .some current
        | some previous =>
            exact .some ((previous.sample right.placement procedural).blend current same.mix)

end ShowSame

section Standstill

variable {animator : Animator}

/-- The speed at which the mix moves is that of the main playback, or one. -/
theorem mixSpeed_isFinite (speeds : animator.stack.SpeedsFinite) :
    ((animator.stack.main?.map Playback.speed).getD 1).isFinite = true := by
  cases playing : animator.stack.main? with
  | none => exact Single.inUnit_one.isFinite
  | some main => exact speeds main (Stack.mem_of_unfinished playing)

/-- An update in no time leaves as the main and the previous playback those it has found. -/
theorem update_zero_showSame (speeds : animator.stack.SpeedsFinite)
    (ranged : animator.blend.mix.isNaN = true ∨ InUnit animator.blend.mix)
    (duration : animator.blend.mixDuration.isFinite = true ∧ 0 < animator.blend.mixDuration)
    (procedural : Pose) : ShowSame (animator.update 0 procedural).animator animator where
  main := Stack.rel_unfinished_advance_zero speeds 0
  previous := Stack.rel_unfinished_advance_zero speeds 1
  mix := Blend.stepMix_zero ranged duration (mixSpeed_isFinite speeds)
  transitionWindow := rfl
  additional := rfl
  placement := rfl

/-- What a second update in no time computes is what the first one left. -/
theorem update_zero_update_zero (speeds : animator.stack.SpeedsFinite)
    (ranged : animator.blend.mix.isNaN = true ∨ InUnit animator.blend.mix)
    (duration : animator.blend.mixDuration.isFinite = true ∧ 0 < animator.blend.mixDuration)
    (window : animator.transitionWindow.isFinite = true ∧ 0 < animator.transitionWindow)
    (procedural : Pose) :
    let first := (animator.update 0 procedural).animator
    let again := (first.update 0 procedural).animator
    again.blend.Same first.blend ∧ again.restrictions = first.restrictions ∧
      again.pose.Same first.pose := by
  intro first again
  have same : ShowSame first animator := update_zero_showSame speeds ranged duration procedural
  have firstSpeeds : first.stack.SpeedsFinite := Stack.advance_zero_speedsFinite speeds
  have mix : SameNumber again.blend.mix first.blend.mix :=
    Blend.stepMix_zero (Single.clampUnit_ranged _) duration (mixSpeed_isFinite firstSpeeds)
  have weight : SameNumber again.blend.weight first.blend.weight := by
    show SameNumber
      (Blend.pulledWeight first.blend.weight 0 animator.transitionWindow first.pull) _
    rw [same.pull]
    exact Blend.pulledWeight_pulledWeight animator.blend.weight window animator.pull
  have eased : SameNumber again.blend.easedWeight first.blend.easedWeight := easeInOut_same weight
  refine ⟨⟨mix, .refl _, weight, eased⟩, same.currentRestrictions, ?_⟩
  -- The held pose is sampled anew, or it stays.
  have held : Option.Rel Pose.Same ((first.sample? procedural).or first.held) first.held := by
    have sampled := same.sample? procedural
    have holds : first.held = (animator.sample? procedural).or animator.held := rfl
    rw [holds]
    generalize first.sample? procedural = shown, animator.sample? procedural = before at sampled ⊢
    cases sampled with
    | some pose => exact .some pose
    | none =>
        rw [Option.none_or, Option.none_or]
        cases animator.held with
        | none => exact .none
        | some pose => exact .some (.refl pose)
  have shown : first.pose =
      first.held.elim procedural (procedural.blend · first.blend.easedWeight) :=
    update_pose animator 0 procedural
  have shownAgain : again.pose = ((first.sample? procedural).or first.held).elim procedural
      (procedural.blend · again.blend.easedWeight) := update_pose first 0 procedural
  rw [shownAgain, shown]
  generalize (first.sample? procedural).or first.held = heldAgain at held ⊢
  generalize first.held = heldBefore at held ⊢
  cases held with
  | none => exact .refl procedural
  | some pose => exact (Pose.Same.refl procedural).blend pose eased

/-- Take any animator whose timing passed its check, after any requests that leave only finite
speeds on its stack.  An update in no time may take playbacks off the stack, pin the weight
and replace the held pose.  A second one right after it, with the same procedural pose, reports
no end and leaves the pose, the restrictions, the blend and the stack numerically as they
are. -/
theorem second_still_frame_changes_nothing {timing : Timing} {requests : List Request}
    (accepted : timing.checked = .ok timing)
    (speeds : ((start timing).run requests).stack.SpeedsFinite) (procedural : Pose) :
    let first := (((start timing).run requests).update 0 procedural).animator
    let second := first.update 0 procedural
    let again := second.animator
    second.ended = [] ∧ again.pose.Same first.pose ∧ again.restrictions = first.restrictions ∧
      again.blend.Same first.blend ∧
      List.Forall₂ Playback.Same again.stack.playbacks first.stack.playbacks ∧
      again.stack.clockRuns = first.stack.clockRuns := by
  intro first second again
  obtain ⟨mixDuration, transitionWindow, _⟩ := run_keeps_timing timing requests
  obtain ⟨duration, window⟩ := Timing.usable_of_checked accepted
  rw [← mixDuration] at duration
  rw [← transitionWindow] at window
  have reached : Reachable ((start timing).run requests) := (Reachable.start timing).run requests
  obtain ⟨blend, restrictions, pose⟩ :=
    update_zero_update_zero speeds reached.mix_ranged duration window procedural
  obtain ⟨nobody, stays⟩ := Stack.advance_advance_zero speeds
  refine ⟨?_, pose, restrictions, blend, stays, rfl⟩
  show (first.stack.advance 0).left.map Ended.ofPlayback = []
  rw [show (first.stack.advance 0).left = [] from nobody]
  rfl

/-- Of three playbacks the lowest is stopped and the other two are being mixed, when mix
transitions become forbidden.  The first frame in no time reports an end and pins the weight,
and the second one does nothing. -/
theorem second_still_frame_while_turning :
    let requests : List Request :=
      [.play (standing 0) 1, .play (standing 8) 1, .play (standing 20) 1,
        .update (.ofRatio false 1 16) .rest, .stop ⟨0⟩,
        .restrict Restriction.preventMixTransition.set]
    let animator := (start .standard).run requests
    let still := animator.update 0 .rest
    let first := still.animator
    let second := first.update 0 .rest
    Timing.standard.checked = .ok .standard ∧ animator.stack.SpeedsFinite ∧
      still.ended.length = 1 ∧ animator.blend.weight < first.blend.weight ∧
      animator.pose ≠ first.pose ∧ first.stack.previous?.isSome = true ∧
      second.ended = [] ∧ second.animator.pose.Same first.pose := by
  intro requests animator still first second
  have accepted : Timing.standard.checked = .ok .standard := by decide +kernel
  have speeds : animator.stack.SpeedsFinite := by decide +kernel
  obtain ⟨nobody, pose, _⟩ := second_still_frame_changes_nothing accepted speeds .rest
  have moves : still.ended.length = 1 ∧ animator.blend.weight < first.blend.weight ∧
      animator.pose ≠ first.pose ∧ first.stack.previous?.isSome = true := by decide +kernel
  obtain ⟨ends, pins, shows, mixes⟩ := moves
  exact ⟨accepted, speeds, ends, pins, shows, mixes, nobody, pose⟩

end Standstill

end Animator

end LimbAnimation
