import LimbAnimation.Forms.Playback
import LimbAnimation.Proofs.Forms.Clip

/-!
# Faithful forms of poses and playbacks

Poses, placements, timings, blends and the records of playbacks come back from their forms
when their singles are finite.
-/

namespace LimbAnimation

namespace Solid

variable {depth : Nat}

theorem optionalShape (optional : Option HandShape) : Faithful depth optional :=
  Faithful.option fun _ => handShape _

theorem limbPose {limb : LimbPose} (finite : AllFinite limb) : Solid (depth + 2) limb := by
  obtain ⟨finitePosition, finiteRest⟩ := List.forall_mem_append.mp finite
  obtain ⟨finiteRotation, finiteScale⟩ := List.forall_mem_cons.mp finiteRest
  have position : Solid (depth + 1) limb.position := vec finitePosition
  have rotation : Solid (depth + 1) limb.rotation := single finiteRotation
  have scale : Solid (depth + 1) limb.scale := vec finiteScale
  have shape : Faithful (depth + 1) limb.shape := optionalShape _
  refine record ["position", "rotation", "scale", "look"] (fun _ => rfl) rfl rfl (by decide)
    ⟨position.writable, rotation.writable, scale.writable, shape.writable⟩ ?_
  simp [position.required, rotation.required, scale.required, shape.orDefault]

theorem pose {pose : Pose} (finite : AllFinite pose) : Solid (depth + 4) pose := by
  obtain ⟨finiteRest, finiteSecond⟩ := List.forall_mem_append.mp finite
  obtain ⟨finiteRest, finiteFirst⟩ := List.forall_mem_append.mp finiteRest
  obtain ⟨finiteBody, finiteHead⟩ := List.forall_mem_append.mp finiteRest
  have body : Solid (depth + 3) pose.body := limbPose finiteBody
  have head : Solid (depth + 3) pose.head := limbPose finiteHead
  have hands : Solid (depth + 3) [pose.firstHand, pose.secondHand] := by
    apply list
    intro hand member
    cases member with
    | head => exact limbPose finiteFirst
    | tail _ member =>
        rw [List.mem_singleton.mp member]
        exact limbPose finiteSecond
  refine record ["body", "head", "hands"] (fun _ => rfl) rfl rfl (by decide)
    ⟨body.writable, head.writable, hands.writable⟩ ?_
  simp [body.required, head.required, hands.required]

theorem placement {placement : Placement} (finite : AllFinite placement) :
    Solid (depth + 1) placement := by
  have flipped : Solid depth placement.flipped := bool _
  have aimAngle : Solid depth placement.aimAngle := single (finite _ (.head _))
  have scale : Solid depth placement.scale := single (finite _ (.tail _ (.head _)))
  refine record ["flipped", "aim_angle", "scale"] (fun _ => rfl) rfl rfl (by decide)
    ⟨flipped.writable, aimAngle.writable, scale.writable⟩ ?_
  simp [flipped.orDefault, aimAngle.orDefault, scale.orDefault]

theorem timing {timing : Timing} (finite : AllFinite timing) : Solid (depth + 1) timing := by
  have mixDuration : Solid depth timing.mixDuration := single (finite _ (.head _))
  have transitionWindow : Solid depth timing.transitionWindow :=
    single (finite _ (.tail _ (.head _)))
  have defaultSpeed : Solid depth timing.defaultSpeed :=
    single (finite _ (.tail _ (.tail _ (.head _))))
  refine record ["mix_duration", "transition_window", "default_speed"]
    (fun _ => rfl) rfl rfl (by decide)
    ⟨mixDuration.writable, transitionWindow.writable, defaultSpeed.writable⟩ ?_
  simp [mixDuration.orDefault, transitionWindow.orDefault, defaultSpeed.orDefault]

theorem blend {blend : Blend} (finite : AllFinite blend) : Solid (depth + 1) blend := by
  have mix : Solid depth blend.mix := single (finite _ (.head _))
  have mixDuration : Solid depth blend.mixDuration := single (finite _ (.tail _ (.head _)))
  have weight : Solid depth blend.weight := single (finite _ (.tail _ (.tail _ (.head _))))
  have easedWeight : Solid depth blend.easedWeight :=
    single (finite _ (.tail _ (.tail _ (.tail _ (.head _)))))
  refine record ["mix_progress", "mix_duration", "transition_factor", "transition_factor_eased"]
    (fun _ => rfl) rfl rfl (by decide)
    ⟨mix.writable, mixDuration.writable, weight.writable, easedWeight.writable⟩ ?_
  simp [mix.required, mixDuration.required, weight.required, easedWeight.required]

theorem playbackId (id : PlaybackId) : Solid depth id := by
  have number : Solid depth id.number := word id.number
  exact ⟨⟨number.writable, congrArg (Option.map PlaybackId.mk) number.reads⟩, number.notNull⟩

theorem ended {ended : Ended} (finite : AllFinite ended) : Solid (depth + 2) ended := by
  have id : Solid (depth + 1) ended.id := playbackId _
  have key : Solid (depth + 1) ended.key := clipKey _
  have timer : Solid (depth + 1) ended.timer := single (finite _ (.head _))
  refine record ["inst", "animation", "timer"] (fun _ => rfl) rfl rfl (by decide)
    ⟨id.writable, key.writable, timer.writable⟩ ?_
  simp [id.required, key.required, timer.required]

end Solid

end LimbAnimation
