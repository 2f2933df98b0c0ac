import LimbAnimation.Proofs.Playback.Push

/-!
# Pushing a playback that is over

Every push starts the mix anew, also that of a playback which is over already and so
never becomes the main one.  Such a push changes nothing else: the next update finds
the same playbacks to show, the same restrictions and the same weight.
-/

namespace LimbAnimation

namespace Stack

variable {stack : Stack} {playback : Playback}

theorem unfinished_push_of_over (isOver : playback.isOver = true) :
    (stack.push playback).unfinished = stack.unfinished := by
  simp [Stack.unfinished, push, isOver]

theorem main?_push_of_over (isOver : playback.isOver = true) :
    (stack.push playback).main? = stack.main? := by
  rw [main?, unfinished_push_of_over isOver, main?]

theorem previous?_push_of_over (isOver : playback.isOver = true) :
    (stack.push playback).previous? = stack.previous? := by
  rw [previous?, unfinished_push_of_over isOver, previous?]

end Stack

namespace Animator

/-- Two animators that differ at most in playbacks which are not shown. -/
structure ShowAlike (left right : Animator) : Prop where
  main : left.stack.main? = right.stack.main?
  previous : left.stack.previous? = right.stack.previous?
  blend : left.blend = right.blend
  transitionWindow : left.transitionWindow = right.transitionWindow
  additional : left.additional = right.additional
  placement : left.placement = right.placement
  held : left.held = right.held

section Congruence

variable {left right : Animator}

theorem currentRestrictions_congr (main : left.stack.main? = right.stack.main?)
    (additional : left.additional = right.additional) :
    left.currentRestrictions = right.currentRestrictions := by
  rw [currentRestrictions, currentRestrictions, main, additional]

/-- The previous playback is looked at only as long as the mix is under way. -/
theorem sample?_congr (main : left.stack.main? = right.stack.main?)
    (previous : left.stack.previous? = right.stack.previous? ∨
      (1 ≤ left.blend.mix ∧ 1 ≤ right.blend.mix))
    (blend : left.blend = right.blend) (placement : left.placement = right.placement)
    (procedural : Pose) : left.sample? procedural = right.sample? procedural := by
  rw [sample?, sample?, main, blend, placement]
  rcases previous with same | ⟨_, complete⟩
  · rw [same]
  · simp only [if_pos complete]

theorem steppedBlend_congr (main : left.stack.main? = right.stack.main?)
    (blend : left.blend = right.blend)
    (transitionWindow : left.transitionWindow = right.transitionWindow)
    (additional : left.additional = right.additional) (seconds : Single) :
    left.steppedBlend seconds = right.steppedBlend seconds := by
  rw [steppedBlend, steppedBlend, pull, pull, currentRestrictions_congr main additional, main,
    blend, transitionWindow]

end Congruence

namespace ShowAlike

variable {left right : Animator}

theorem currentRestrictions (alike : ShowAlike left right) :
    left.currentRestrictions = right.currentRestrictions :=
  currentRestrictions_congr alike.main alike.additional

theorem sample? (alike : ShowAlike left right) (procedural : Pose) :
    left.sample? procedural = right.sample? procedural :=
  sample?_congr alike.main (.inl alike.previous) alike.blend alike.placement procedural

theorem steppedBlend (alike : ShowAlike left right) (seconds : Single) :
    left.steppedBlend seconds = right.steppedBlend seconds :=
  steppedBlend_congr alike.main alike.blend alike.transitionWindow alike.additional seconds

end ShowAlike

theorem pose_congr {left right : Animator} {seconds : Single} {procedural : Pose}
    (sampled : left.sample? procedural = right.sample? procedural) (held : left.held = right.held)
    (weight : (left.steppedBlend seconds).easedWeight = (right.steppedBlend seconds).easedWeight) :
    (left.update seconds procedural).animator.pose =
      (right.update seconds procedural).animator.pose := by
  simp only [update, sampled, held, weight]

variable {animator : Animator} {playback : Playback}

/-- The animator with the mix at its start; when nothing is playing, the held pose is
forgotten. -/
def restarted (animator : Animator) : Animator :=
  { animator with
    held := if animator.stack.main?.isNone then none else animator.held
    blend := { animator.blend with mix := 0 } }

theorem push_showAlike (isOver : playback.isOver = true) :
    ShowAlike (animator.push playback) animator.restarted where
  main := Stack.main?_push_of_over isOver
  previous := Stack.previous?_push_of_over isOver
  blend := rfl
  transitionWindow := rfl
  additional := rfl
  placement := rfl
  held := rfl

theorem restarted_easedWeight (animator : Animator) (seconds : Single) :
    (animator.restarted.steppedBlend seconds).easedWeight =
      (animator.steppedBlend seconds).easedWeight := rfl

theorem restarted_blend (begun : animator.blend.mix = 0) :
    animator.restarted.blend = animator.blend := by
  show { animator.blend with mix := 0 } = animator.blend
  rw [← begun]

/-- The mix makes a difference only if there is a previous playback to mix with. -/
theorem restarted_sample? (unmixed : animator.stack.previous? = none ∨ animator.blend.mix = 0)
    (procedural : Pose) : animator.restarted.sample? procedural = animator.sample? procedural := by
  rcases unmixed with alone | begun
  · have same : animator.restarted.stack = animator.stack := rfl
    simp only [sample?, same, alone, ite_self]
    rfl
  · simp only [sample?, restarted_blend begun]
    rfl

theorem restarted_held (forgotten : animator.stack.main? = none → animator.held = none) :
    animator.restarted.held = animator.held := by
  cases playing : animator.stack.main? with
  | none => simp [restarted, playing, forgotten playing]
  | some main => simp [restarted, playing]

/-- The push of a playback that is over leaves the next update as it is, but for the
mix, which starts anew, and for a pose that is held while nothing plays, which is
forgotten as in every push.  The pose shown next stays the same unless a mix with the
previous playback was under way or complete, or such a pose was held. -/
theorem push_of_over_only_restarts (isOver : playback.isOver = true) (seconds : Single)
    (procedural : Pose) :
    let pushed := animator.push playback
    let afterPush := (pushed.update seconds procedural).animator
    let afterRestart := (animator.restarted.update seconds procedural).animator
    let untouched := (animator.update seconds procedural).animator
    pushed.stack.main? = animator.stack.main? ∧
      pushed.stack.previous? = animator.stack.previous? ∧
      afterPush.restrictions = untouched.restrictions ∧
      afterPush.blend = { untouched.blend with mix := afterRestart.blend.mix } ∧
      afterPush.pose = afterRestart.pose ∧
      (animator.blend.mix = 0 → afterPush.blend = untouched.blend) ∧
      ((animator.stack.main? = none → animator.held = none) →
        (animator.stack.previous? = none ∨ animator.blend.mix = 0) →
        afterPush.pose = untouched.pose) := by
  intro pushed afterPush afterRestart untouched
  have alike : ShowAlike pushed animator.restarted := push_showAlike isOver
  have sampled := alike.sample? procedural
  have blend := alike.steppedBlend seconds
  refine ⟨alike.main, alike.previous, alike.currentRestrictions, blend, ?_, ?_, ?_⟩
  · exact pose_congr sampled alike.held (congrArg Blend.easedWeight blend)
  · intro begun
    refine blend.trans ?_
    rw [steppedBlend, restarted_blend begun]
    rfl
  · intro forgotten unmixed
    apply pose_congr
    · exact sampled.trans (restarted_sample? unmixed procedural)
    · exact alike.held.trans (restarted_held forgotten)
    · exact (congrArg Blend.easedWeight blend).trans (restarted_easedWeight animator seconds)

/-- A clip without duration. -/
def blink : Clip := ⟨⟨"blink", "guard"⟩, none, none, [], .empty, 0, false, false⟩

/-- An animator that has turned from the place 0 to the place 8. -/
def turned : Animator :=
  ((((start .standard).play (standing 0) 1).play (standing 8) 1).update 1 .rest).animator

theorem turned_keeps_restrictions_of_blink :
    let playback := Playback.start turned.nextId blink 1
    let seconds : Single := .ofRatio false 1 8
    let untouched := (turned.update seconds .rest).animator
    let afterPush := ((turned.push playback).update seconds .rest).animator
    playback.isOver = true ∧ (turned.push playback).stack.main? = turned.stack.main? ∧
      afterPush.restrictions = untouched.restrictions ∧
      afterPush.blend.weight = untouched.blend.weight := by
  intro playback seconds untouched afterPush
  have isOver : playback.isOver = true := by decide +kernel
  obtain ⟨main, _, restrictions, blend, _⟩ := push_of_over_only_restarts isOver seconds .rest
  have weight := congrArg Blend.weight blend
  exact ⟨isOver, main, restrictions, weight⟩

/-- The push of a clip without duration shows the place 0 again. -/
theorem push_of_blink_turns_back :
    let playback := Playback.start turned.nextId blink 1
    let seconds : Single := .ofRatio false 1 8
    let untouched := (turned.update seconds .rest).animator
    let afterPush := ((turned.push playback).update seconds .rest).animator
    turned.Reachable ∧ playback.isOver = true ∧
      untouched.pose.body.position = ⟨8, 0⟩ ∧ afterPush.pose.body.position = ⟨0, 0⟩ ∧
      untouched.blend.mix = 1 ∧ afterPush.blend.mix = .ofRatio false 2 5 := by
  intro playback seconds untouched afterPush
  have reachable : turned.Reachable :=
    .after (.after (.after (.start .standard) (.play (standing 0) 1)) (.play (standing 8) 1))
      (.update 1 .rest)
  exact ⟨reachable, by decide +kernel⟩

end Animator

end LimbAnimation
