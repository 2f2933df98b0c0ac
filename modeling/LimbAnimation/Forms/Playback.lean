import LimbAnimation.Forms.Clip
import LimbAnimation.Playback.Animator

/-!
# JSON forms of poses and playbacks

The forms of poses, placements, timings, blends and the records of playbacks.
-/

namespace LimbAnimation

instance : JsonForm LimbPose where
  toJson limb := .ofMembers
    [("position", toJson limb.position), ("rotation", toJson limb.rotation),
      ("scale", toJson limb.scale), ("look", toJson limb.shape)]
  ofJson? json := do
    let [position, rotation, scale, shape] ←
      json.fields? ["position", "rotation", "scale", "look"] | none
    return {
      position := ← position.required?
      rotation := ← rotation.required?
      scale := ← scale.required?
      shape := ← shape.orDefault? none }

instance : JsonForm Pose where
  toJson pose := .ofMembers
    [("body", toJson pose.body), ("head", toJson pose.head),
      ("hands", toJson [pose.firstHand, pose.secondHand])]
  ofJson? json := do
    let [body, head, hands] ← json.fields? ["body", "head", "hands"] | none
    let [firstHand, secondHand] ← (hands.required? : Option (List LimbPose)) | none
    return { body := ← body.required?, head := ← head.required?, firstHand, secondHand }

instance : JsonForm Placement where
  toJson placement := .ofMembers
    [("flipped", toJson placement.flipped), ("aim_angle", toJson placement.aimAngle),
      ("scale", toJson placement.scale)]
  ofJson? json := do
    let [flipped, aimAngle, scale] ← json.fields? ["flipped", "aim_angle", "scale"] | none
    return {
      flipped := ← flipped.orDefault? Placement.standard.flipped
      aimAngle := ← aimAngle.orDefault? Placement.standard.aimAngle
      scale := ← scale.orDefault? Placement.standard.scale }

instance : JsonForm Timing where
  toJson timing := .ofMembers
    [("mix_duration", toJson timing.mixDuration),
      ("transition_window", toJson timing.transitionWindow),
      ("default_speed", toJson timing.defaultSpeed)]
  ofJson? json := do
    let [mixDuration, transitionWindow, defaultSpeed] ←
      json.fields? ["mix_duration", "transition_window", "default_speed"] | none
    return {
      mixDuration := ← mixDuration.orDefault? Timing.standard.mixDuration
      transitionWindow := ← transitionWindow.orDefault? Timing.standard.transitionWindow
      defaultSpeed := ← defaultSpeed.orDefault? Timing.standard.defaultSpeed }

instance : JsonForm Blend where
  toJson blend := .ofMembers
    [("mix_progress", toJson blend.mix), ("mix_duration", toJson blend.mixDuration),
      ("transition_factor", toJson blend.weight),
      ("transition_factor_eased", toJson blend.easedWeight)]
  ofJson? json := do
    let [mix, mixDuration, weight, easedWeight] ← json.fields?
      ["mix_progress", "mix_duration", "transition_factor", "transition_factor_eased"] | none
    return {
      mix := ← mix.required?
      mixDuration := ← mixDuration.required?
      weight := ← weight.required?
      easedWeight := ← easedWeight.required? }

instance : JsonForm PlaybackId where
  toJson id := toJson id.number
  ofJson? json := (ofJson? json).map PlaybackId.mk

instance : JsonForm Ended where
  toJson ended := .ofMembers
    [("inst", toJson ended.id), ("animation", toJson ended.key), ("timer", toJson ended.timer)]
  ofJson? json := do
    let [id, key, timer] ← json.fields? ["inst", "animation", "timer"] | none
    return { id := ← id.required?, key := ← key.required?, timer := ← timer.required? }

end LimbAnimation
