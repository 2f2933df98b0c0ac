import LimbAnimation.Forms.Stage
import LimbAnimation.Proofs.Forms.Playback
import LimbAnimation.Proofs.Json.ReadsPrinted

/-!
# Faithful forms of inputs and outputs

What goes into a stage and what comes out of it comes back from its form when its singles
are finite.
-/

namespace LimbAnimation

namespace Solid

variable {depth : Nat}

theorem actorId (id : ActorId) : Solid depth id := by
  have number : Solid depth id.number := word id.number
  exact ⟨⟨number.writable, congrArg (Option.map ActorId.mk) number.reads⟩, number.notNull⟩

theorem actorInput {input : ActorInput} (finite : AllFinite input) :
    Solid (depth + 5) input := by
  obtain ⟨finiteProcedural, finitePlacement⟩ := List.forall_mem_append.mp finite
  have finiteProcedural : AllFinite input.procedural := finiteProcedural
  have finitePlacement : AllFinite input.placement := finitePlacement
  have actor : Solid (depth + 4) input.actor := actorId _
  have procedural : Faithful (depth + 4) input.procedural :=
    Faithful.option fun present => pose (finiteProcedural.content present)
  have placement : Faithful (depth + 4) input.placement :=
    Faithful.option fun present => placement (finitePlacement.content present)
  have additional : Faithful (depth + 4) input.additional :=
    Faithful.option fun _ => restrictions _
  refine record ["actor", "procedural", "context", "additional_constraints"]
    (fun _ => rfl) rfl rfl (by decide)
    ⟨actor.writable, procedural.writable, placement.writable, additional.writable⟩ ?_
  simp [actor.required, procedural.orDefault, placement.orDefault, additional.orDefault]

theorem command {command : Command} (finite : AllFinite command) :
    Solid (depth + 2) command := by
  cases command with
  | play actor key speed =>
      have finiteSpeed : AllFinite speed := finite
      have solidActor : Solid depth actor := actorId _
      have name : Solid depth key.name := string _
      have group : Solid depth key.group := string _
      have solidSpeed : Faithful depth speed := Faithful.option fun present =>
        single (finiteSpeed.content present _ (.head _))
      refine choice ["actor", "name", "group", "speed"] "Play" (fun _ => rfl) rfl rfl (by decide)
        ⟨solidActor.writable, name.writable, group.writable, solidSpeed.writable⟩ ?_
      simp [solidActor.required, name.required, group.required, solidSpeed.orDefault]
  | clear actor =>
      have solidActor : Solid depth actor := actorId _
      refine choice ["actor"] "Clear" (fun _ => rfl) rfl rfl (by decide)
        solidActor.writable ?_
      simp [solidActor.required]
  | setClock actor runs =>
      have solidActor : Solid depth actor := actorId _
      have solidRuns : Solid depth runs := bool _
      refine choice ["actor", "enabled"] "SetClockEnabled" (fun _ => rfl) rfl rfl (by decide)
        ⟨solidActor.writable, solidRuns.writable⟩ ?_
      simp [solidActor.required, solidRuns.required]

theorem inputs {inputs : Inputs} (finite : AllFinite inputs) : Solid (depth + 7) inputs := by
  obtain ⟨finiteActors, finiteCommands⟩ := List.forall_mem_append.mp finite
  have finiteActors : AllFinite inputs.actors := finiteActors
  have finiteCommands : AllFinite inputs.commands := finiteCommands
  have actors : Solid (depth + 6) inputs.actors :=
    list fun member => actorInput (finiteActors.each member)
  have commands : Solid (depth + 6) inputs.commands :=
    list fun member => command (finiteCommands.each member)
  refine record ["actors", "commands"] (fun _ => rfl) rfl rfl (by decide)
    ⟨actors.writable, commands.writable⟩ ?_
  simp [actors.orDefault, commands.orDefault]

theorem frame {frame : Frame} (finite : AllFinite frame) : Solid (depth + 5) frame := by
  have actor : Solid (depth + 4) frame.actor := actorId _
  have pose : Solid (depth + 4) frame.pose := pose finite
  have restrictions : Solid (depth + 4) frame.restrictions := restrictions _
  refine record ["actor", "pose", "constraints"] (fun _ => rfl) rfl rfl (by decide)
    ⟨actor.writable, pose.writable, restrictions.writable⟩ ?_
  simp [actor.required, pose.required, restrictions.required]

theorem event {event : Event} (finite : AllFinite event) : Solid (depth + 3) event := by
  cases event with
  | started actor playback key =>
      have solidActor : Solid (depth + 1) actor := actorId _
      have solidPlayback : Solid (depth + 1) playback := playbackId _
      have solidKey : Solid (depth + 1) key := clipKey _
      refine choice ["actor", "inst", "animation"] "AnimationStarted"
        (fun _ => rfl) rfl rfl (by decide)
        ⟨solidActor.writable, solidPlayback.writable, solidKey.writable⟩ ?_
      simp [solidActor.required, solidPlayback.required, solidKey.required]
  | ended actor playback key timer =>
      have solidActor : Solid (depth + 1) actor := actorId _
      have solidPlayback : Solid (depth + 1) playback := playbackId _
      have solidKey : Solid (depth + 1) key := clipKey _
      have solidTimer : Solid (depth + 1) timer := single (finite _ (.head _))
      refine choice ["actor", "inst", "animation", "timer"] "AnimationEnded"
        (fun _ => rfl) rfl rfl (by decide)
        ⟨solidActor.writable, solidPlayback.writable, solidKey.writable, solidTimer.writable⟩ ?_
      simp [solidActor.required, solidPlayback.required, solidKey.required, solidTimer.required]
  | rejected reason =>
      have solidReason : Solid (depth + 1) reason := string _
      refine choice ["message"] "Error" (fun _ => rfl) rfl rfl (by decide)
        solidReason.writable ?_
      simp [solidReason.required]

theorem outputs {outputs : Outputs} (finite : AllFinite outputs) : Solid (depth + 7) outputs := by
  obtain ⟨finiteFrames, finiteEvents⟩ := List.forall_mem_append.mp finite
  have finiteFrames : AllFinite outputs.frames := finiteFrames
  have finiteEvents : AllFinite outputs.events := finiteEvents
  have frames : Solid (depth + 6) outputs.frames :=
    list fun member => frame (finiteFrames.each member)
  have events : Solid (depth + 6) outputs.events :=
    list fun member => event (finiteEvents.each member)
  refine record ["frames", "events"] (fun _ => rfl) rfl rfl (by decide)
    ⟨frames.writable, events.writable⟩ ?_
  simp [frames.orDefault, events.orDefault]

end Solid

/-- Over every lawful layer of texts, timings, timelines, tracks, curves, clips, poses,
placements, blends, endings, and all that is exchanged with a stage come back from the texts of
their forms. -/
theorem forms_read_back {layer : JsonText} (lawful : layer.Lawful) :
    layer.ReadsBack Timing ∧ layer.ReadsBack RestrictionTimeline ∧
    layer.ReadsBack HandShape.Timeline ∧ layer.ReadsBack Track ∧ layer.ReadsBack (Curve Vec) ∧
    layer.ReadsBack (Curve Single) ∧ layer.ReadsBack Clip ∧ layer.ReadsBack LimbPose ∧
    layer.ReadsBack Pose ∧ layer.ReadsBack Placement ∧ layer.ReadsBack Blend ∧
    layer.ReadsBack Ended ∧ layer.ReadsBack Command ∧ layer.ReadsBack Inputs ∧
    layer.ReadsBack Event ∧ layer.ReadsBack Outputs := by
  refine ⟨?timing, ?restrictions, ?shapes, ?track, ?vectors, ?singles, ?clip, ?limb, ?pose,
    ?placement, ?blend, ?ended, ?command, ?inputs, ?event, ?outputs⟩
  case timing => exact fun _ finite _ => (Solid.timing finite).reread lawful
  case restrictions => exact fun _ finite _ => (Solid.restrictionTimeline finite).reread lawful
  case shapes => exact fun _ finite _ => (Solid.handShapeTimeline finite).reread lawful
  case track => exact fun _ finite indexed => (Solid.track finite indexed).reread lawful
  case vectors => exact fun _ finite _ => (Solid.curve Solid.vec finite).reread lawful
  case singles => exact fun _ finite _ => (Solid.curve Solid.number finite).reread lawful
  case clip => exact fun _ finite indexed => (Solid.clip finite indexed).reread lawful
  case limb => exact fun _ finite _ => (Solid.limbPose finite).reread lawful
  case pose => exact fun _ finite _ => (Solid.pose finite).reread lawful
  case placement => exact fun _ finite _ => (Solid.placement finite).reread lawful
  case blend => exact fun _ finite _ => (Solid.blend finite).reread lawful
  case ended => exact fun _ finite _ => (Solid.ended finite).reread lawful
  case command => exact fun _ finite _ => (Solid.command finite).reread lawful
  case inputs => exact fun _ finite _ => (Solid.inputs finite).reread lawful
  case event => exact fun _ finite _ => (Solid.event finite).reread lawful
  case outputs => exact fun _ finite _ => (Solid.outputs finite).reread lawful

/-- The hand with the greatest index, names that need escapes, the smallest positive single,
a zero with its sign, and restrictions without a name. -/
theorem escaped_values_read_back :
    let name := "say \"hi\"\\\n\x01é🙂"
    let smallest : Single := .finite false 1 ⟨by decide, 1, 0, by decide, rfl⟩
    let track : Track :=
      ⟨.hand 18446744073709551615, smallest, true, none, some ⟨[⟨.zeroOf true, smallest⟩]⟩,
        some .empty, .empty⟩
    let inputs : Inputs := {
      actors := [⟨⟨7⟩, none, some ⟨true, .zeroOf true, smallest⟩, some ⟨0x80000001#32⟩⟩]
      commands := [.play ⟨7⟩ ⟨name, ""⟩ none, .play ⟨7⟩ ⟨"", name⟩ (some smallest), .clear ⟨0⟩,
        .setClock ⟨1⟩ false] }
    JsonText.plain.Lawful ∧
      JsonText.plain.print (toJson [smallest, .zeroOf true]) = "[1e-45,-0.0]" ∧
      (AllFinite track ∧ AllIndexed track ∧ JsonText.plain.reread? track = some track) ∧
      AllFinite inputs ∧ AllIndexed inputs ∧ JsonText.plain.reread? inputs = some inputs := by
  intro name smallest track inputs
  have printed : JsonText.plain.print (toJson [smallest, .zeroOf true]) = "[1e-45,-0.0]" := by
    decide +kernel
  have finite : AllFinite track ∧ AllFinite inputs := by decide
  have indexed : AllIndexed track ∧ AllIndexed inputs := by decide
  obtain ⟨_, _, _, tracks, _, _, _, _, _, _, _, _, _, exchanged, _⟩ :=
    forms_read_back JsonText.plain_lawful
  exact ⟨JsonText.plain_lawful, printed, ⟨finite.1, indexed.1, tracks track finite.1 indexed.1⟩,
    finite.2, indexed.2, exchanged inputs finite.2 indexed.2⟩

end LimbAnimation
