import LimbAnimation.Proofs.Playback.Reachable
import LimbAnimation.Proofs.Pose

/-!
# Pushing a playback

A push starts a mix from the main playback to the new one.  The pose that is shown
next is the one of the main playback alone: there is no jump when that was what was
shown, and there is one when the main playback was still being mixed itself.
-/

namespace LimbAnimation

namespace Stack

variable {stack : Stack} {playback : Playback}

theorem unfinished_push (unfinished : playback.isOver = false) :
    (stack.push playback).unfinished = playback :: stack.unfinished := by
  simp [Stack.unfinished, push, unfinished]

theorem main?_push (unfinished : playback.isOver = false) :
    (stack.push playback).main? = some playback := by
  rw [main?, unfinished_push unfinished, List.getElem?_cons_zero]

theorem previous?_push (unfinished : playback.isOver = false) :
    (stack.push playback).previous? = stack.main? := by
  rw [previous?, unfinished_push unfinished, List.getElem?_cons_succ, main?]

end Stack

namespace Animator

/-- The main playback is shown by itself: the mix is complete, or there is nothing
to mix with. -/
def Settled (animator : Animator) : Prop :=
  1 ≤ animator.blend.mix ∨ animator.stack.previous? = none

variable {animator : Animator} {playback main : Playback} {procedural : Pose}

theorem sample?_settled (playing : animator.stack.main? = some main) (settled : animator.Settled) :
    animator.sample? procedural = some (main.sample animator.placement procedural) := by
  rw [sample?, playing]
  rcases settled with complete | alone
  · exact if_pos complete
  · rw [alone]
    exact ite_self _

theorem sample?_push (playing : animator.stack.main? = some main)
    (unfinished : playback.isOver = false) :
    (animator.push playback).sample? procedural =
      some ((main.sample animator.placement procedural).blend
        (playback.sample animator.placement procedural) 0) := by
  have mixing : ¬ (1 : Single) ≤ 0 := by decide +kernel
  have pushed : (animator.push playback).stack = animator.stack.push playback := rfl
  -- The former main playback is now the previous one, and the mix is at its start.
  rw [sample?, pushed, Stack.main?_push unfinished, Stack.previous?_push unfinished, playing]
  exact if_neg mixing

/-- After a push, the pose of the former main playback is shown.  That is the pose
which would have been shown without the push, if no mix was under way. -/
theorem push_shows_former_main (playing : animator.stack.main? = some main)
    (unfinished : playback.isOver = false)
    (spans : (main.sample animator.placement procedural).spans
      (playback.sample animator.placement procedural) = true) :
    ∃ shown, (animator.push playback).sample? procedural = some shown ∧
      shown.equals (main.sample animator.placement procedural) = true ∧
      (animator.Settled → ∃ before, animator.sample? procedural = some before ∧
        shown.equals before = true) := by
  have same := Pose.blend_zero_equals spans
  exact ⟨_, sample?_push playing unfinished, same,
    fun settled => ⟨_, sample?_settled playing settled, same⟩⟩

/-- The body at a place along the ground, for four seconds. -/
def standing (place : Single) : Clip :=
  let track : Track :=
    { limb := .body, duration := 4, followsAim := false, translation := some ⟨[⟨⟨place, 0⟩, 0⟩]⟩
      rotation := none, scale := none, shapes := .empty }
  { key := ⟨"stand", "guard"⟩, body := some track, head := none, hands := []
    restrictions := .empty, duration := 4, smooth := false, relativeHands := false }

/-- A second after the last push, the mix is complete, and the next push changes
nothing that is shown. -/
theorem push_after_mixing_shows_same :
    let timing : Timing := ⟨1, .ofRatio false 1 4, 1⟩
    let first := ((start timing).play (standing 0) 1).play (standing 8) 1
    let animator := (first.update 1 .rest).animator
    let main : Playback := { Playback.start ⟨1⟩ (standing 8) 1 with timer := 1 }
    let playback := Playback.start animator.nextId (standing 20) 1
    animator.stack.main? = some main ∧ playback.isOver = false ∧
      (main.sample animator.placement .rest).spans
        (playback.sample animator.placement .rest) = true ∧
      animator.stack.previous?.isSome = true ∧
      ∃ shown before, (animator.push playback).sample? .rest = some shown ∧
        animator.sample? .rest = some before ∧ shown.equals before = true := by
  intro timing first animator main playback
  have playing : animator.stack.main? = some main := by decide +kernel
  have unfinished : playback.isOver = false := by decide +kernel
  have spans : (main.sample animator.placement .rest).spans
      (playback.sample animator.placement .rest) = true := by decide +kernel
  have settled : animator.Settled := .inl (by decide +kernel)
  obtain ⟨shown, pushed, _, unchanged⟩ := push_shows_former_main playing unfinished spans
  obtain ⟨before, sampled, same⟩ := unchanged settled
  exact ⟨playing, unfinished, spans, by decide +kernel, shown, before, pushed, sampled, same⟩

/-- Half way from the place 0 to the place 8, the next push jumps from 4 to 8. -/
theorem push_while_mixing_jumps :
    let timing : Timing := ⟨1, .ofRatio false 1 4, 1⟩
    let first := ((start timing).play (standing 0) 1).play (standing 8) 1
    let animator := (first.update Single.half .rest).animator
    let main : Playback := { Playback.start ⟨1⟩ (standing 8) 1 with timer := Single.half }
    let playback := Playback.start animator.nextId (standing 20) 1
    animator.Reachable ∧ animator.stack.main? = some main ∧ playback.isOver = false ∧
      (main.sample animator.placement .rest).spans
        (playback.sample animator.placement .rest) = true ∧
      ((animator.sample? .rest).map fun pose => pose.body.position) = some ⟨4, 0⟩ ∧
      (((animator.push playback).sample? .rest).map fun pose => pose.body.position) =
        some ⟨8, 0⟩ ∧
      ((animator.sample? .rest).any fun before =>
        ((animator.push playback).sample? .rest).any fun shown => !shown.equals before) = true := by
  intro timing first animator main playback
  have reachable : animator.Reachable :=
    .after (.after (.after (.start timing) (.play (standing 0) 1)) (.play (standing 8) 1))
      (.update Single.half .rest)
  exact ⟨reachable, by decide +kernel⟩

end Animator

end LimbAnimation
