import LimbAnimation.Forms.Playback
import LimbAnimation.Stage.Exchange

/-!
# JSON forms of inputs and outputs

The forms of what goes into a stage and what comes out.
-/

namespace LimbAnimation

instance : JsonForm ActorId where
  toJson id := toJson id.number
  ofJson? json := (ofJson? json).map ActorId.mk

instance : JsonForm ActorInput where
  toJson input := .ofMembers
    [("actor", toJson input.actor), ("procedural", toJson input.procedural),
      ("context", toJson input.placement), ("additional_constraints", toJson input.additional)]
  ofJson? json := do
    let [actor, procedural, placement, additional] ←
      json.fields? ["actor", "procedural", "context", "additional_constraints"] | none
    return {
      actor := ← actor.required?
      procedural := ← procedural.orDefault? none
      placement := ← placement.orDefault? none
      additional := ← additional.orDefault? none }

instance : JsonForm Command where
  toJson
    | .play actor key speed => .choice "Play" (.ofMembers
        [("actor", toJson actor), ("name", toJson key.name), ("group", toJson key.group),
          ("speed", toJson speed)])
    | .clear actor => .choice "Clear" (.ofMembers [("actor", toJson actor)])
    | .setClock actor runs => .choice "SetClockEnabled" (.ofMembers
        [("actor", toJson actor), ("enabled", toJson runs)])
  ofJson? json := do
    let (name, some content) ← json.choice? | none
    if name = "Play" then
      let [actor, name, group, speed] ← content.fields? ["actor", "name", "group", "speed"] | none
      return .play (← actor.required?) ⟨← name.required?, ← group.required?⟩
        (← speed.orDefault? none)
    else if name = "Clear" then
      let [actor] ← content.fields? ["actor"] | none
      return .clear (← actor.required?)
    else if name = "SetClockEnabled" then
      let [actor, runs] ← content.fields? ["actor", "enabled"] | none
      return .setClock (← actor.required?) (← runs.required?)
    else none

instance : JsonForm Inputs where
  toJson inputs := .ofMembers
    [("actors", toJson inputs.actors), ("commands", toJson inputs.commands)]
  ofJson? json := do
    let [actors, commands] ← json.fields? ["actors", "commands"] | none
    return { actors := ← actors.orDefault? [], commands := ← commands.orDefault? [] }

instance : JsonForm Frame where
  toJson frame := .ofMembers
    [("actor", toJson frame.actor), ("pose", toJson frame.pose),
      ("constraints", toJson frame.restrictions)]
  ofJson? json := do
    let [actor, pose, restrictions] ← json.fields? ["actor", "pose", "constraints"] | none
    return {
      actor := ← actor.required?
      pose := ← pose.required?
      restrictions := ← restrictions.required? }

instance : JsonForm Event where
  toJson
    | .started actor playback key => .choice "AnimationStarted" (.ofMembers
        [("actor", toJson actor), ("inst", toJson playback), ("animation", toJson key)])
    | .ended actor playback key timer => .choice "AnimationEnded" (.ofMembers
        [("actor", toJson actor), ("inst", toJson playback), ("animation", toJson key),
          ("timer", toJson timer)])
    | .rejected reason => .choice "Error" (.ofMembers [("message", toJson reason)])
  ofJson? json := do
    let (name, some content) ← json.choice? | none
    if name = "AnimationStarted" then
      let [actor, playback, key] ← content.fields? ["actor", "inst", "animation"] | none
      return .started (← actor.required?) (← playback.required?) (← key.required?)
    else if name = "AnimationEnded" then
      let [actor, playback, key, timer] ←
        content.fields? ["actor", "inst", "animation", "timer"] | none
      return .ended (← actor.required?) (← playback.required?) (← key.required?)
        (← timer.required?)
    else if name = "Error" then
      let [reason] ← content.fields? ["message"] | none
      return .rejected (← reason.required?)
    else none

instance : JsonForm Outputs where
  toJson outputs := .ofMembers
    [("frames", toJson outputs.frames), ("events", toJson outputs.events)]
  ofJson? json := do
    let [frames, events] ← json.fields? ["frames", "events"] | none
    return { frames := ← frames.orDefault? [], events := ← events.orDefault? [] }

end LimbAnimation
