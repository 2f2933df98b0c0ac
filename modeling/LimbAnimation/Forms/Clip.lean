import LimbAnimation.Clip.Basic
import LimbAnimation.Json.Form
import LimbAnimation.Restrictions.Text

/-!
# JSON forms of clips

The forms of vectors, curves, restrictions, hand shapes, tracks and clips.
-/

namespace LimbAnimation

open Json (Field)

instance : JsonForm Vec where
  toJson vector := .ofMembers [("x", toJson vector.x), ("y", toJson vector.y)]
  ofJson? json := do
    let [x, y] ← json.fields? ["x", "y"] | none
    return { x := ← x.required?, y := ← y.required? }

instance {α : Type} [JsonForm α] : JsonForm (Key α) where
  toJson key := .ofMembers [("value", toJson key.value), ("position", toJson key.position)]
  ofJson? json := do
    let [value, position] ← json.fields? ["value", "position"] | none
    return { value := ← value.required?, position := ← position.required? }

instance {α : Type} [JsonForm α] : JsonForm (Curve α) where
  toJson curve := .ofMembers [("keys", toJson curve.keys)]
  ofJson? json := do
    let [keys] ← json.fields? ["keys"] | none
    return { keys := ← keys.required? }

instance : JsonForm Restrictions where
  toJson set := .string set.toText
  ofJson? json := (ofJson? json : Option String).bind Restrictions.ofText?

instance : JsonForm RestrictionEntry where
  toJson entry := .ofMembers [("time", toJson entry.time), ("mask", toJson entry.restrictions)]
  ofJson? json := do
    let [time, restrictions] ← json.fields? ["time", "mask"] | none
    return { time := ← time.required?, restrictions := ← restrictions.required? }

instance : JsonForm RestrictionTimeline where
  toJson timeline := .ofMembers [("entries", toJson timeline.entries)]
  ofJson? json := do
    let [entries] ← json.fields? ["entries"] | none
    return { entries := ← entries.required? }

instance : JsonForm HandShape where
  toJson shape := .string shape.name
  ofJson? json := do
    let (name, content) ← json.choice?
    if Json.isBare content then HandShape.all.find? fun shape => shape.name = name else none

instance : JsonForm HandShape.Change where
  toJson change := .ofMembers [("time", toJson change.position), ("look", toJson change.shape)]
  ofJson? json := do
    let [position, shape] ← json.fields? ["time", "look"] | none
    return { position := ← position.required?, shape := ← shape.required? }

instance : JsonForm HandShape.Timeline where
  toJson timeline := .ofMembers [("keys", toJson timeline.changes)]
  ofJson? json := do
    let [changes] ← json.fields? ["keys"] | none
    return { changes := ← changes.required? }

instance : JsonForm Limb where
  toJson
    | .body => .string "Body"
    | .head => .string "Head"
    | .hand index => .choice "Hand" (.natural index)
  ofJson? json := do
    let (name, content) ← json.choice?
    if name = "Body" then (if Json.isBare content then some .body else none)
    else if name = "Head" then (if Json.isBare content then some .head else none)
    else if name = "Hand" then
      (content.bind fun content => content.naturalBelow? (2 ^ (64 : Nat))).map Limb.hand
    else none

instance : JsonForm Track where
  toJson track := .ofMembers
    [("kind", toJson track.limb), ("duration", toJson track.duration),
      ("adjust_for_aim", toJson track.followsAim), ("translation", toJson track.translation),
      ("rotation", toJson track.rotation), ("scale", toJson track.scale),
      ("hand_looks", toJson track.shapes)]
  ofJson? json := do
    let [limb, duration, followsAim, translation, rotation, scale, shapes] ← json.fields?
      ["kind", "duration", "adjust_for_aim", "translation", "rotation", "scale", "hand_looks"]
      | none
    return {
      limb := ← limb.required?
      duration := ← duration.required?
      followsAim := ← followsAim.required?
      translation := ← translation.optional?
      rotation := ← rotation.optional?
      scale := ← scale.optional?
      shapes := ← shapes.orDefault? .empty }

instance : JsonForm ClipKey where
  toJson key := .ofMembers [("name", toJson key.name), ("group", toJson key.group)]
  ofJson? json := do
    let [name, group] ← json.fields? ["name", "group"] | none
    return { name := ← name.required?, group := ← group.required? }

instance : JsonForm Clip where
  toJson clip := .ofMembers
    [("name", toJson clip.key.name), ("group", toJson clip.key.group),
      ("body", toJson clip.body), ("head", toJson clip.head), ("hands", toJson clip.hands),
      ("constraints", toJson clip.restrictions), ("total_duration", toJson clip.duration),
      ("do_smoothing", toJson clip.smooth),
      ("relative_hand_position", toJson clip.relativeHands)]
  ofJson? json := do
    let [name, group, body, head, hands, restrictions, duration, smooth, relativeHands] ←
      json.fields?
        ["name", "group", "body", "head", "hands", "constraints", "total_duration",
          "do_smoothing", "relative_hand_position"]
      | none
    return {
      key := { name := ← name.required?, group := ← group.required? }
      body := ← body.optional?
      head := ← head.optional?
      hands := ← hands.required?
      restrictions := ← restrictions.required?
      duration := ← duration.required?
      smooth := ← smooth.required?
      relativeHands := ← relativeHands.required? }

end LimbAnimation
