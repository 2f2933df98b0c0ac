import LimbAnimation.Proofs.Playback.FadeOut
import LimbAnimation.Proofs.Playback.Restart

/-!
# What an update sees

Of all that is on a stack, an update looks at the main playback and, as long as the mix is
under way, at the previous one.  While something plays it does not look at the held pose
either.
-/

namespace LimbAnimation.Animator

theorem exists_sample? {animator : Animator} {main : Playback}
    (playing : animator.stack.main? = some main) (procedural : Pose) :
    ∃ shown, animator.sample? procedural = some shown := by
  rw [sample?, playing]
  dsimp only
  split
  · exact ⟨_, rfl⟩
  · cases animator.stack.previous? with
    | none => exact ⟨_, rfl⟩
    | some previous => exact ⟨_, rfl⟩

/-- Take two animators with the same main playback and, unless the mix is complete in both, the
same previous one, which agree in their blend, their transition window, their additional
restrictions and their placement.  An update gives both the same pose, the same restrictions
and the same blend, whatever else is on their stacks, whether or not their clocks run, and
whatever poses they hold. -/
theorem update_sees_main_and_previous {left right : Animator} {main : Playback}
    (playing : left.stack.main? = some main) (alsoPlaying : right.stack.main? = some main)
    (previous : left.stack.previous? = right.stack.previous? ∨
      (1 ≤ left.blend.mix ∧ 1 ≤ right.blend.mix))
    (blend : left.blend = right.blend)
    (transitionWindow : left.transitionWindow = right.transitionWindow)
    (additional : left.additional = right.additional)
    (placement : left.placement = right.placement) (seconds : Single) (procedural : Pose) :
    let first := (left.update seconds procedural).animator
    let second := (right.update seconds procedural).animator
    first.pose = second.pose ∧ first.restrictions = second.restrictions ∧
      first.blend = second.blend := by
  intro first second
  have sameMain : left.stack.main? = right.stack.main? := playing.trans alsoPlaying.symm
  have sampled := sample?_congr sameMain previous blend placement procedural
  have stepped := steppedBlend_congr sameMain blend transitionWindow additional seconds
  refine ⟨?_, currentRestrictions_congr sameMain additional, stepped⟩
  -- Something is sampled, so that no held pose shows.
  obtain ⟨shown, isShown⟩ := exists_sample? playing procedural
  rw [update_pose, update_pose, ← sampled, isShown, stepped]
  rfl

/-- Half way from the place 0 to the place 8, it makes no difference that the clock of one
animator stands still, that it holds another pose, and that one playback on its stack is
over and another one lies at the bottom. -/
theorem update_sees_main_and_previous_of_crowd :
    let previous := Playback.start ⟨3⟩ (standing 0) 1
    let main := Playback.start ⟨4⟩ (standing 8) 1
    let finished := Playback.start ⟨5⟩ blink 1
    let bottom := Playback.start ⟨2⟩ (standing 20) 1
    let blend : Blend := ⟨Single.half, 1, 1, 1⟩
    let alone : Animator :=
      { start .standard with stack := ⟨[previous, main], true⟩, blend := blend }
    let crowd : Animator :=
      { alone with stack := ⟨[bottom, previous, main, finished], false⟩, held := some .rest }
    alone.stack.main? = some main ∧ crowd.stack.main? = some main ∧
      alone.stack.previous? = crowd.stack.previous? ∧
      (alone.update 1 .rest).animator.pose = (crowd.update 1 .rest).animator.pose ∧
      (alone.update 1 .rest).animator.pose.body.position = ⟨4, 0⟩ ∧
      (alone.update 1 .rest).animator.stack ≠ (crowd.update 1 .rest).animator.stack := by
  intro previous main finished bottom blend alone crowd
  have onTop : alone.stack.main? = some main ∧ crowd.stack.main? = some main ∧
      alone.stack.previous? = crowd.stack.previous? := by decide +kernel
  obtain ⟨playing, alsoPlaying, below⟩ := onTop
  have seen := update_sees_main_and_previous playing alsoPlaying (.inl below) rfl rfl rfl rfl 1
    .rest
  exact ⟨playing, alsoPlaying, below, seen.1, by decide +kernel⟩

end LimbAnimation.Animator
