import LimbAnimation.Proofs.Stage.Requests

/-!
# Rejected requests

A stage treats a list of inputs as if the rejected ones had never been made,
apart from reporting them.  The main statement says so for a whole frame; it
rests on the fact that no request changes which other requests are refused.
-/

namespace LimbAnimation.Stage

/-- The inputs without those that the stage rejects. -/
def accepted (stage : Stage) (inputs : Inputs) : Inputs where
  actors := inputs.actors.filter fun input => (stage.inputRefusal? input).isNone
  commands := inputs.commands.filter fun command => (stage.commandRefusal? command).isNone

/-- Why inputs are rejected: first those for actors, then the commands, each in
their order. -/
def refusals (stage : Stage) (inputs : Inputs) : List Failure :=
  inputs.actors.filterMap stage.inputRefusal? ++
    inputs.commands.filterMap stage.commandRefusal?

section Lists

variable {ι : Type} {apply : Stage → ι → Attempt Unit} {refusal? : Stage → ι → Option Failure}

/-- A list of requests does what its accepted ones do, and its failures are the
refusals of the others. -/
theorem applyAll_eq_accepted
    (respects : ∀ stage request, (apply stage request).Respects stage (refusal? stage request))
    (stable : ∀ stage request, refusal? (apply stage request).stage = refusal? stage)
    (stage : Stage) (requests : List ι) :
    applyAll apply stage requests =
      ((applyAll apply stage
          (requests.filter fun request => (refusal? stage request).isNone)).1,
        requests.filterMap (refusal? stage)) := by
  induction requests generalizing stage with
  | nil => rfl
  | cons request rest ih =>
      have onRest := ih (apply stage request).stage
      rw [stable] at onRest
      cases refusal : refusal? stage request with
      | none =>
          obtain ⟨value, success⟩ := (respects stage request).granted refusal
          simp [applyAll, refusal, success, onRest]
      | some failure =>
          have attempted := (respects stage request).refused failure refusal
          rw [attempted] at onRest
          simp [applyAll, refusal, attempted, onRest]

end Lists

theorem takeInputs_eq_accepted (stage : Stage) (inputs : Inputs) :
    stage.takeInputs inputs =
      ((stage.takeInputs (stage.accepted inputs)).1, stage.refusals inputs) := by
  have onActors := applyAll_eq_accepted takeInput_respects
    (fun stage input => (takeInput_respects stage input).keeps.inputRefusal?)
    stage inputs.actors
  have keeps := applyAll_keeps takeInput_respects stage (stage.accepted inputs).actors
  have onCommands := applyAll_eq_accepted obey_respects
    (fun stage command => (obey_respects stage command).keeps.commandRefusal?)
    (applyAll takeInput stage (stage.accepted inputs).actors).1 inputs.commands
  rw [keeps.commandRefusal?] at onCommands
  simp only [takeInputs, refusals, accepted] at onActors onCommands ⊢
  rw [onActors, onCommands]

theorem refusals_accepted (stage : Stage) (inputs : Inputs) :
    stage.refusals (stage.accepted inputs) = [] := by
  simp only [refusals, accepted, List.append_eq_nil_iff, List.filterMap_eq_nil_iff,
    List.mem_filter, Option.isNone_iff_eq_none]
  exact ⟨fun _ member => member.2, fun _ member => member.2⟩

/-- Between two frames nothing but starts is added to what is to be reported. -/
theorem Obeys.pending {stage : Stage} {command : Command} {attempt : Attempt Unit}
    (obeys : Obeys stage command attempt) :
    ∃ starts : List Event, attempt.stage.pending = stage.pending ++ starts ∧
      ∀ reason, Event.rejected reason ∉ starts := by
  cases obeys with
  | refused => exact ⟨[], by simp, by simp⟩
  | played => exact ⟨[.started _ _ _], rfl, by simp⟩
  | cleared => exact ⟨[], by simp [modifyAnimator, modifyActor], by simp⟩
  | switched => exact ⟨[], by simp [modifyAnimator, modifyActor], by simp⟩

theorem takeInput_pending (stage : Stage) (input : ActorInput) :
    (stage.takeInput input).stage.pending = stage.pending := by
  unfold takeInput Stage.change
  split <;> rfl

theorem applyAll_takeInput_pending (stage : Stage) (inputs : List ActorInput) :
    (applyAll takeInput stage inputs).1.pending = stage.pending := by
  induction inputs generalizing stage with
  | nil => rfl
  | cons input rest ih =>
      rw [applyAll_cons, ih, takeInput_pending]

theorem applyAll_obey_pending (stage : Stage) (commands : List Command) :
    ∃ starts : List Event,
      (applyAll obey stage commands).1.pending = stage.pending ++ starts ∧
        ∀ reason, Event.rejected reason ∉ starts := by
  induction commands generalizing stage with
  | nil => exact ⟨[], by simp [applyAll], by simp⟩
  | cons command rest ih =>
      obtain ⟨first, added, firstStarts⟩ := (obey_obeys stage command).pending
      obtain ⟨others, later, otherStarts⟩ := ih (stage.obey command).stage
      refine ⟨first ++ others, ?_, ?_⟩
      · rw [applyAll_cons, later, added, List.append_assoc]
      · intro reason member
        rcases List.mem_append.mp member with inFirst | inOthers
        · exact firstStarts reason inFirst
        · exact otherStarts reason inOthers

theorem rejected_mem_pending_of_takeInputs {stage : Stage} {inputs : Inputs} {reason : String}
    (member : Event.rejected reason ∈ (stage.takeInputs inputs).1.pending) :
    Event.rejected reason ∈ stage.pending := by
  obtain ⟨starts, added, noRejection⟩ :=
    applyAll_obey_pending (applyAll takeInput stage inputs.actors).1 inputs.commands
  have pending : (stage.takeInputs inputs).1.pending = stage.pending ++ starts := by
    simpa only [takeInputs, applyAll_takeInput_pending] using added
  rw [pending] at member
  exact (List.mem_append.mp member).resolve_right (noRejection reason)

theorem rejected_mem_pending_of_step {stage : Stage} {seconds : Single} {reason : String}
    (member : Event.rejected reason ∈ (stage.step seconds).2.events) :
    Event.rejected reason ∈ stage.pending := by
  rcases List.mem_append.mp member with waiting | ending
  · exact waiting
  · simp [Actor.endings] at ending

theorem takeInputs_accepted_refusals (stage : Stage) (inputs : Inputs) :
    (stage.takeInputs (stage.accepted inputs)).2 = [] := by
  rw [takeInputs_eq_accepted, refusals_accepted]

theorem update_eq_accepted (stage : Stage) (seconds : Single) (inputs : Inputs) :
    stage.update seconds inputs =
      let clean := stage.update seconds (stage.accepted inputs)
      (clean.1, { clean.2 with
        events := (stage.refusals inputs).map .ofFailure ++ clean.2.events }) := by
  have taken := takeInputs_eq_accepted stage inputs
  simp [update, taken, takeInputs_accepted_refusals]

/-- Whoever is refused leaves no trace but an error.  A request that fails outside
a frame changes nothing.  A frame with rejected inputs is the frame without them,
and its outputs begin with one report for each of them; a report that comes later
was waiting before. -/
theorem refused_requests_leave_no_trace :
    (∀ (stage : Stage) (id : ActorId) (key : ClipKey) (speed : Option Single)
        (failure : Failure), (stage.play id key speed).result = .error failure →
      (stage.play id key speed).stage = stage) ∧
    (∀ (stage : Stage) (id : ActorId) (failure : Failure),
      (stage.clear id).result = .error failure → (stage.clear id).stage = stage) ∧
    (∀ (stage : Stage) (id : ActorId) (runs : Bool) (failure : Failure),
      (stage.setClock id runs).result = .error failure →
      (stage.setClock id runs).stage = stage) ∧
    ∀ (stage : Stage) (seconds : Single) (inputs : Inputs),
      let after := stage.update seconds inputs
      let clean := stage.update seconds (stage.accepted inputs)
      after.1 = clean.1 ∧ after.2.frames = clean.2.frames ∧
        after.2.events = (stage.refusals inputs).map .ofFailure ++ clean.2.events ∧
        ∀ reason, Event.rejected reason ∈ clean.2.events →
          Event.rejected reason ∈ stage.pending := by
  refine ⟨?_, ?_, ?_, ?_⟩
  · intro stage id key speed failure failed
    exact (play_respects stage id key speed).stage_of_error failed
  · intro stage id failure failed
    exact (clear_respects stage id).stage_of_error failed
  · intro stage id runs failure failed
    exact (setClock_respects stage id runs).stage_of_error failed
  · intro stage seconds inputs
    have taken := update_eq_accepted stage seconds inputs
    refine ⟨by rw [taken], by rw [taken], by rw [taken], ?_⟩
    intro reason member
    simp only [update, takeInputs_accepted_refusals, List.map_nil, List.nil_append] at member
    exact rejected_mem_pending_of_takeInputs (rejected_mem_pending_of_step member)

/-- A stage with one actor, on which an unknown clip and an unknown actor are
refused, outside a frame and within one. -/
theorem refused_requests_leave_no_trace_of_two :
    let stage := ((Stage.start .standard).createActor "guard").announce (.rejected "late")
    let wave : ClipKey := ⟨"wave", "guard"⟩
    let inputs : Inputs := ⟨[], [.play ⟨0⟩ wave none, .setClock ⟨0⟩ false, .clear ⟨1⟩]⟩
    let clean : Inputs := ⟨[], [.setClock ⟨0⟩ false]⟩
    ((stage.play ⟨0⟩ wave none).stage = stage ∧ (stage.clear ⟨1⟩).stage = stage ∧
        (stage.setClock ⟨1⟩ true).stage = stage) ∧
      (stage.update 0 inputs).1 = (stage.update 0 clean).1 ∧
      (stage.update 0 inputs).2.events =
        [.ofFailure (.clipNotFound wave), .ofFailure (.actorNotFound ⟨1⟩)] ++
          (stage.update 0 clean).2.events ∧
      Event.rejected "late" ∈ stage.pending := by
  intro stage wave inputs clean
  obtain ⟨onPlay, onClear, onSetClock, onUpdate⟩ := refused_requests_leave_no_trace
  have accepted : stage.accepted inputs = clean := rfl
  obtain ⟨sameStage, sameFrames, events, earlier⟩ := onUpdate stage 0 inputs
  rw [accepted] at sameStage events earlier
  refine ⟨⟨?_, ?_, ?_⟩, sameStage, events, ?_⟩
  · exact onPlay stage ⟨0⟩ wave none (.clipNotFound wave) rfl
  · exact onClear stage ⟨1⟩ (.actorNotFound ⟨1⟩) rfl
  · exact onSetClock stage ⟨1⟩ true (.actorNotFound ⟨1⟩) rfl
  · exact earlier "late" List.mem_cons_self

end LimbAnimation.Stage
