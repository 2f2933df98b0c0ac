import LimbAnimation.Forms.Clip
import LimbAnimation.Proofs.Forms.Faithful
import LimbAnimation.Proofs.Restrictions.Text

/-!
# Faithful forms of clips

Vectors, curves, restrictions, hand shapes, tracks and clips come back from their forms when
their singles are finite and the indices of their hands have at most 64 bits.
-/

namespace LimbAnimation

namespace Solid

variable {depth : Nat}

theorem number {value : Single} (finite : AllFinite value) : Solid depth value :=
  single (finite _ (.head _))

theorem vec {vector : Vec} (finite : AllFinite vector) : Solid (depth + 1) vector := by
  have x : Solid depth vector.x := single (finite _ (.head _))
  have y : Solid depth vector.y := single (finite _ (.tail _ (.head _)))
  refine record ["x", "y"] (fun _ => rfl) rfl rfl (by decide) ⟨x.writable, y.writable⟩ ?_
  simp [x.required, y.required]

section

variable {α : Type} [JsonForm α] [HasNumbers α]

theorem key (each : ∀ {value : α}, AllFinite value → Solid depth value) {key : Key α}
    (finite : AllFinite key) : Solid (depth + 1) key := by
  obtain ⟨finiteValue, finitePosition⟩ := List.forall_mem_append.mp finite
  have value : Solid depth key.value := each finiteValue
  have position : Solid depth key.position := single (finitePosition _ (.head _))
  refine record ["value", "position"] (fun _ => rfl) rfl rfl (by decide)
    ⟨value.writable, position.writable⟩ ?_
  simp [value.required, position.required]

theorem curve (each : ∀ {value : α}, AllFinite value → Solid depth value) {curve : Curve α}
    (finite : AllFinite curve) : Solid (depth + 3) curve := by
  have finiteKeys : AllFinite curve.keys := finite
  have keys : Solid (depth + 2) curve.keys :=
    list fun member => key each (finiteKeys.each member)
  refine record ["keys"] (fun _ => rfl) rfl rfl (by decide) keys.writable ?_
  simp [keys.required]

theorem optionalCurve (each : ∀ {value : α}, AllFinite value → Solid depth value)
    {optional : Option (Curve α)} (finite : AllFinite optional) : Faithful (depth + 3) optional :=
  Faithful.option fun present => curve each (finite.content present)

end

theorem restrictions (set : Restrictions) : Solid depth set :=
  ⟨⟨.string set.toText, Restrictions.ofText?_toText set⟩, nofun⟩

theorem restrictionEntry {entry : RestrictionEntry} (finite : AllFinite entry) :
    Solid (depth + 1) entry := by
  have time : Solid depth entry.time := single (finite _ (.head _))
  have mask : Solid depth entry.restrictions := restrictions _
  refine record ["time", "mask"] (fun _ => rfl) rfl rfl (by decide)
    ⟨time.writable, mask.writable⟩ ?_
  simp [time.required, mask.required]

theorem restrictionTimeline {timeline : RestrictionTimeline} (finite : AllFinite timeline) :
    Solid (depth + 3) timeline := by
  have finiteEntries : AllFinite timeline.entries := finite
  have entries : Solid (depth + 2) timeline.entries :=
    list fun member => restrictionEntry (finiteEntries.each member)
  refine record ["entries"] (fun _ => rfl) rfl rfl (by decide) entries.writable ?_
  simp [entries.required]

theorem handShape (shape : HandShape) : Solid depth shape := by
  refine ⟨⟨.string shape.name, ?_⟩, nofun⟩
  cases shape <;> rfl

theorem handShapeChange {change : HandShape.Change} (finite : AllFinite change) :
    Solid (depth + 1) change := by
  have position : Solid depth change.position := single (finite _ (.head _))
  have shape : Solid depth change.shape := handShape _
  refine record ["time", "look"] (fun _ => rfl) rfl rfl (by decide)
    ⟨position.writable, shape.writable⟩ ?_
  simp [position.required, shape.required]

theorem handShapeTimeline {timeline : HandShape.Timeline} (finite : AllFinite timeline) :
    Solid (depth + 3) timeline := by
  have finiteChanges : AllFinite timeline.changes := finite
  have changes : Solid (depth + 2) timeline.changes :=
    list fun member => handShapeChange (finiteChanges.each member)
  refine record ["keys"] (fun _ => rfl) rfl rfl (by decide) changes.writable ?_
  simp [changes.required]

theorem limb {limb : Limb} (indexed : AllIndexed limb) : Solid (depth + 1) limb := by
  cases limb with
  | body => exact ⟨⟨.string "Body", rfl⟩, nofun⟩
  | head => exact ⟨⟨.string "Head", rfl⟩, nofun⟩
  | hand index =>
      have small : index < 2 ^ 64 := indexed _ (.head _)
      refine ⟨⟨Json.writable_choice "Hand" (.natural small), ?_⟩, nofun⟩
      change ((Json.natural index).naturalBelow? (2 ^ 64)).map Limb.hand = _
      rw [Json.naturalBelow?_natural small]
      rfl

theorem track {track : Track} (finite : AllFinite track) (indexed : AllIndexed track) :
    Solid (depth + 5) track := by
  obtain ⟨finiteDuration, finiteRest⟩ := List.forall_mem_cons.mp finite
  obtain ⟨finiteRest, finiteShapes⟩ := List.forall_mem_append.mp finiteRest
  obtain ⟨finiteRest, finiteScale⟩ := List.forall_mem_append.mp finiteRest
  obtain ⟨finiteTranslation, finiteRotation⟩ := List.forall_mem_append.mp finiteRest
  have limb : Solid (depth + 4) track.limb := limb indexed
  have duration : Solid (depth + 4) track.duration := single finiteDuration
  have followsAim : Solid (depth + 4) track.followsAim := bool _
  have translation : Faithful (depth + 4) track.translation := optionalCurve vec finiteTranslation
  have rotation : Faithful (depth + 4) track.rotation := optionalCurve number finiteRotation
  have scale : Faithful (depth + 4) track.scale := optionalCurve vec finiteScale
  have shapes : Solid (depth + 4) track.shapes := handShapeTimeline finiteShapes
  refine record
    ["kind", "duration", "adjust_for_aim", "translation", "rotation", "scale", "hand_looks"]
    (fun _ => rfl) rfl rfl (by decide)
    ⟨limb.writable, duration.writable, followsAim.writable, translation.writable,
      rotation.writable, scale.writable, shapes.writable⟩ ?_
  simp [limb.required, duration.required, followsAim.required, translation.optional,
    rotation.optional, scale.optional, shapes.orDefault]

theorem optionalTrack {optional : Option Track} (finite : AllFinite optional)
    (indexed : AllIndexed optional) : Faithful (depth + 5) optional :=
  Faithful.option fun present => track (finite.content present) (indexed.content present)

theorem clipKey (key : ClipKey) : Solid (depth + 1) key := by
  have name : Solid depth key.name := string _
  have group : Solid depth key.group := string _
  refine record ["name", "group"] (fun _ => rfl) rfl rfl (by decide)
    ⟨name.writable, group.writable⟩ ?_
  simp [name.required, group.required]

theorem clip {clip : Clip} (finite : AllFinite clip) (indexed : AllIndexed clip) :
    Solid (depth + 7) clip := by
  obtain ⟨finiteRest, finiteDuration⟩ := List.forall_mem_append.mp finite
  obtain ⟨finiteRest, finiteRestrictions⟩ := List.forall_mem_append.mp finiteRest
  obtain ⟨finiteRest, finiteHands⟩ := List.forall_mem_append.mp finiteRest
  obtain ⟨finiteBody, finiteHead⟩ := List.forall_mem_append.mp finiteRest
  obtain ⟨indexedRest, indexedHands⟩ := List.forall_mem_append.mp indexed
  obtain ⟨indexedBody, indexedHead⟩ := List.forall_mem_append.mp indexedRest
  have finiteHands : AllFinite clip.hands := finiteHands
  have indexedHands : AllIndexed clip.hands := indexedHands
  have name : Solid (depth + 6) clip.key.name := string _
  have group : Solid (depth + 6) clip.key.group := string _
  have body : Faithful (depth + 6) clip.body := optionalTrack finiteBody indexedBody
  have head : Faithful (depth + 6) clip.head := optionalTrack finiteHead indexedHead
  have hands : Solid (depth + 6) clip.hands :=
    list fun member => track (finiteHands.each member) (indexedHands.each member)
  have restrictions : Solid (depth + 6) clip.restrictions := restrictionTimeline finiteRestrictions
  have duration : Solid (depth + 6) clip.duration := single (finiteDuration _ (.head _))
  have smooth : Solid (depth + 6) clip.smooth := bool _
  have relativeHands : Solid (depth + 6) clip.relativeHands := bool _
  refine record
    ["name", "group", "body", "head", "hands", "constraints", "total_duration", "do_smoothing",
      "relative_hand_position"]
    (fun _ => rfl) rfl rfl (by decide)
    ⟨name.writable, group.writable, body.writable, head.writable, hands.writable,
      restrictions.writable, duration.writable, smooth.writable, relativeHands.writable⟩ ?_
  simp [name.required, group.required, body.optional, head.optional, hands.required,
    restrictions.required, duration.required, smooth.required, relativeHands.required]

end Solid

end LimbAnimation
