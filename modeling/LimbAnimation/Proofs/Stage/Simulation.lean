import LimbAnimation.Proofs.Stage.Accounts
import LimbAnimation.Proofs.Stage.Solo

/-!
# The solo of an actor

The solo of an actor is what a stage knows of this actor alone.  Every action does
to it what the cues of the action do, and a frame shows the same of both.
-/

namespace LimbAnimation

/-- An actor without its number and name. -/
def Actor.solo (actor : Actor) : Solo := ⟨actor.animator, actor.procedural⟩

@[simp] theorem Actor.solo_update (actor : Actor) (seconds : Single) :
    actor.solo.update seconds = actor.update seconds := rfl

namespace Stage

/-- The solo of an actor on the stage. -/
def solo? (stage : Stage) (id : ActorId) : Option Solo := (stage.actor? id).map Actor.solo

theorem actor?_modifyActor {change : Actor → Actor}
    (kept : ∀ actor, (change actor).id = actor.id) (stage : Stage) (other id : ActorId) :
    (stage.modifyActor other change).actor? id =
      if other = id then (stage.actor? id).map change else stage.actor? id := by
  split
  next same =>
      subst same
      exact find?_modifyFirst (by simp [kept]) stage.actors
  next different =>
      refine find?_modifyFirst_of_disjoint (by simp [kept]) ?_ stage.actors
      intro actor chosen
      simpa [of_decide_eq_true chosen] using different

/-- A change of an actor that does what a cue does. -/
theorem solo?_modifyActor (cue : Cue) (change : Actor → Actor)
    (kept : ∀ actor, (change actor).id = actor.id)
    (follows : ∀ actor, (change actor).solo = actor.solo.after cue)
    (stage : Stage) (other id : ActorId) :
    (stage.modifyActor other change).solo? id =
      (stage.solo? id).map fun solo => solo.afterAll (if other = id then [cue] else []) := by
  rw [solo?, solo?, actor?_modifyActor kept]
  split
  next same => simp [Function.comp_def, follows]
  next different => simp [Function.comp_def]

theorem solo?_modifyAnimator (cue : Cue) (change : Animator → Animator)
    (follows : ∀ solo : Solo, solo.after cue = { solo with animator := change solo.animator })
    (stage : Stage) (other id : ActorId) :
    (stage.modifyAnimator other change).solo? id =
      (stage.solo? id).map fun solo => solo.afterAll (if other = id then [cue] else []) := by
  refine solo?_modifyActor cue _ (by intro _; rfl) ?_ stage other id
  intro actor
  rw [follows]
  rfl

theorem ne_of_absence? {stage : Stage} {other id : ActorId} {failure : Failure} {actor : Actor}
    (absence : stage.absence? other = some failure) (found : stage.actor? id = some actor) :
    other ≠ id := by
  intro same
  rw [same, absence?_of_found found] at absence
  cases absence

/-- A refused command is no cue for anybody on the stage. -/
theorem cue?_of_refused {stage : Stage} {command : Command} {failure : Failure} {id : ActorId}
    {actor : Actor} (refusal : stage.commandRefusal? command = some failure)
    (found : stage.actor? id = some actor) :
    command.cue? stage.timing id stage.library = none := by
  cases command with
  | play other key speed =>
      cases stored : stage.library.get? key with
      | none => simp [Command.cue?, stored]
      | some clip =>
          rw [commandRefusal?_of_stored stored] at refusal
          have different : other ≠ id := ne_of_absence? refusal found
          simp [Command.cue?, different]
  | clear other =>
      have different : other ≠ id := ne_of_absence? refusal found
      simp [Command.cue?, different]
  | setClock other runs =>
      have different : other ≠ id := ne_of_absence? refusal found
      simp [Command.cue?, different]

/-- A command does to a solo what its cue does. -/
theorem Obeys.solo? {stage : Stage} {command : Command} {attempt : Attempt Unit}
    (obeys : Obeys stage command attempt) (id : ActorId) :
    attempt.stage.solo? id = (stage.solo? id).map fun solo =>
      solo.afterAll (command.cue? stage.timing id stage.library).toList := by
  cases obeys with
  | refused refusal =>
      cases found : stage.actor? id with
      | none => simp [Stage.solo?, found]
      | some actor => simp [cue?_of_refused refusal found]
  | @played other key speed clip actor stored found =>
      let rate := speed.getD stage.timing.defaultSpeed
      have moved := solo?_modifyAnimator (.play clip rate) (fun animator => animator.play clip rate)
        (fun _ => rfl) stage other id
      apply moved.trans
      by_cases same : other = id <;> simp [Command.cue?, same, stored, rate]
  | @cleared other actor found =>
      have moved := solo?_modifyAnimator .clear Animator.clear (fun _ => rfl) stage other id
      apply moved.trans
      by_cases same : other = id <;> simp [Command.cue?, same]
  | @switched other actor runs found =>
      have moved := solo?_modifyAnimator (.setClock runs) (fun animator => animator.setClock runs)
        (fun _ => rfl) stage other id
      apply moved.trans
      by_cases same : other = id <;> simp [Command.cue?, same]

theorem takeInput_solo? (stage : Stage) (input : ActorInput) (id : ActorId) :
    (stage.takeInput input).stage.solo? id =
      (stage.solo? id).map fun solo => solo.afterAll (input.cue? id).toList := by
  cases found : stage.actor? input.actor with
  | none =>
      rw [takeInput, change_of_absent found]
      by_cases same : input.actor = id
      · have absent : stage.solo? id = none := by simp [Stage.solo?, ← same, found]
        simp [absent]
      · simp [ActorInput.cue?, same]
  | some actor =>
      rw [takeInput, change_of_found found]
      have moved := solo?_modifyActor
        (.adjust input.procedural input.placement input.additional)
        (fun actor => actor.withInput input) (by intro _; rfl) (by intro _; rfl) stage
        input.actor id
      apply moved.trans
      by_cases same : input.actor = id <;> simp [ActorInput.cue?, same]

/-- A list of requests does to a solo what their cues do. -/
theorem applyAll_solo? {ι : Type} {apply : Stage → ι → Attempt Unit}
    {refusal? : Stage → ι → Option Failure} (id : ActorId)
    (cue? : Timing → Library → ι → Option Cue)
    (respects : ∀ stage request, (apply stage request).Respects stage (refusal? stage request))
    (follows : ∀ stage request, (apply stage request).stage.solo? id =
      (stage.solo? id).map fun solo =>
        solo.afterAll (cue? stage.timing stage.library request).toList)
    (stage : Stage) (requests : List ι) :
    (applyAll apply stage requests).1.solo? id =
      (stage.solo? id).map fun solo =>
        solo.afterAll (requests.filterMap (cue? stage.timing stage.library)) := by
  induction requests generalizing stage with
  | nil => simp [applyAll]
  | cons request rest ih =>
      have keeps := (respects stage request).keeps
      rw [applyAll_cons, ih, keeps.timing, keeps.library, follows, Option.map_map]
      cases cue : cue? stage.timing stage.library request with
      | none => simp [Function.comp_def, cue]
      | some found => simp [Function.comp_def, cue]

theorem takeInputs_solo? (stage : Stage) (inputs : Inputs) (id : ActorId) :
    (stage.takeInputs inputs).1.solo? id =
      (stage.solo? id).map fun solo =>
        solo.afterAll (inputs.cues stage.timing id stage.library) := by
  have keeps := applyAll_keeps takeInput_respects stage inputs.actors
  have onActors := applyAll_solo? id (fun _ _ => ActorInput.cue? id) takeInput_respects
    (fun stage input => takeInput_solo? stage input id) stage inputs.actors
  have onCommands := applyAll_solo? id (fun timing => Command.cue? timing id) obey_respects
    (fun stage command => (obey_obeys stage command).solo? id)
    (applyAll takeInput stage inputs.actors).1 inputs.commands
  rw [onActors, keeps.timing, keeps.library, Option.map_map] at onCommands
  simpa only [takeInputs, Inputs.cues, Function.comp_def, Solo.afterAll_append] using onCommands

theorem step_solo? (stage : Stage) (seconds : Single) (id : ActorId) :
    (stage.step seconds).1.solo? id =
      (stage.solo? id).map fun solo => solo.after (.tick seconds) := by
  simp only [solo?, actor?, step, List.map_map, List.find?_map, Option.map_map]
  rfl

/-- A frame does to a solo what its cues do. -/
theorem update_solo? (stage : Stage) (seconds : Single) (inputs : Inputs) (id : ActorId) :
    (stage.update seconds inputs).1.solo? id =
      (stage.solo? id).map fun solo => solo.afterAll
        ((Action.update seconds inputs).cues stage.timing id stage.library) := by
  rw [update, step_solo?, takeInputs_solo?, Option.map_map]
  simp [Action.cues, Solo.afterAll_append, Function.comp_def]

theorem createActor_solo? {stage : Stage} {id : ActorId} (different : stage.nextId ≠ id)
    (name : String) : (stage.createActor name).solo? id = stage.solo? id := by
  simp [solo?, actor?, createActor, List.find?_append, different]

theorem createActor_solo?_nextId {stage : Stage} (fresh : stage.nextId ∉ stage.cast)
    (name : String) :
    (stage.createActor name).solo? stage.nextId = some (Solo.start stage.timing) := by
  have absent : stage.actor? stage.nextId = none := actor?_eq_none_iff.mpr fresh
  rw [actor?] at absent
  simp [solo?, actor?, createActor, List.find?_append, absent, Actor.solo, Solo.start]

theorem removeActor_solo? {stage : Stage} {other id : ActorId} (different : other ≠ id) :
    (stage.removeActor other).1.solo? id = stage.solo? id := by
  simp only [solo?, actor?, removeActor, List.find?_filter]
  congr 2
  funext actor
  by_cases chosen : actor.id = id <;> simp [chosen, different.symm]

theorem removeActor_solo?_self (stage : Stage) (id : ActorId) :
    (stage.removeActor id).1.solo? id = none := by
  simp [solo?, actor?, removeActor]

/-- What a frame tells of an actor whose solo is given, if the actor is there. -/
def partOf (id : ActorId) (seconds : Single) : Option Solo → Part
  | some solo => (solo.shown seconds).part id
  | none => .none

theorem filter_endings (stage : Stage) (seconds : Single) (id : ActorId) :
    ((stage.actors.flatMap fun actor => actor.endings (actor.update seconds)).filter
        fun event => event.endsFor id) =
      (stage.actors.filter fun actor => actor.id = id).flatMap fun actor =>
        actor.endings (actor.update seconds) := by
  induction stage.actors with
  | nil => rfl
  | cons actor rest ih =>
      rw [List.flatMap_cons, List.filter_append, ih]
      by_cases same : actor.id = id <;>
        simp [Actor.endings, Event.endsFor, List.filter_map, Function.comp_def, same]

theorem endsFor_of_ended?_eq_none {event : Event} (noEnd : event.ended? = none) (id : ActorId) :
    event.endsFor id = false := by
  cases event with
  | ended actor playback key timer => cases noEnd
  | started actor playback key => rfl
  | rejected reason => rfl

/-- What a frame tells of an actor is what the solo of the actor shows. -/
theorem step_part {stage : Stage} (nodup : stage.cast.Nodup)
    (quiet : ∀ event ∈ stage.pending, event.ended? = none) (seconds : Single) (id : ActorId) :
    (stage.step seconds).2.part id = partOf id seconds (stage.solo? id) := by
  have own : (stage.actors.filter fun actor => actor.id = id) = (stage.actor? id).toList :=
    filter_eq_find?_toList nodup id
  have noEnds : (stage.pending.filter fun event => event.endsFor id) = [] := by
    apply List.filter_eq_nil_iff.mpr
    intro event member
    simp [endsFor_of_ended?_eq_none (quiet event member) id]
  have frames : (stage.step seconds).2.frames =
      stage.actors.map fun actor => actor.frame (actor.update seconds) := by
    simp [step]
  have ownFrames : ((stage.step seconds).2.frames.filter fun frame => frame.actor = id) =
      (stage.actor? id).toList.map fun actor => actor.frame (actor.update seconds) := by
    rw [frames, List.filter_map, ← own]
    rfl
  rw [Outputs.part, ownFrames, step_events, List.filter_append, noEnds, filter_endings, own]
  cases found : stage.actor? id with
  | none => simp [solo?, found, partOf, Part.none]
  | some actor =>
      have same : actor.id = id := id_of_actor? found
      simp [solo?, found, partOf, Shown.part, Solo.shown, Actor.frame, Actor.endings, same]

theorem update_part {stage : Stage} {history : History} (nodup : stage.cast.Nodup)
    (balanced : Balanced stage history) (seconds : Single) (inputs : Inputs) (id : ActorId) :
    (stage.update seconds inputs).2.part id =
      partOf id seconds ((stage.solo? id).map fun solo =>
        solo.afterAll (inputs.cues stage.timing id stage.library)) := by
  have keeps := takeInputs_keeps stage inputs
  have ready : Balanced (stage.takeInputs inputs).1 _ :=
    commands_balanced (takeInputs_balanced balanced inputs.actors) inputs.commands
  have noFailures : ((stage.takeInputs inputs).2.map Event.ofFailure).filter
      (fun event => event.endsFor id) = [] := by
    apply List.filter_eq_nil_iff.mpr
    intro event member
    obtain ⟨failure, _, rfl⟩ := List.mem_map.mp member
    have noEnd : (Event.ofFailure failure).ended? = none := rfl
    simp [endsFor_of_ended?_eq_none noEnd id]
  have stepped := step_part (keeps.cast ▸ nodup) ready.quiet seconds id
  rw [← takeInputs_solo?]
  simpa only [update, Outputs.part, List.filter_append, noFailures, List.nil_append] using stepped

theorem after_library (stage : Stage) (action : Action) :
    (stage.after action).library = action.libraryAfter stage.library := by
  cases action with
  | setLibrary library => rfl
  | createActor name => rfl
  | removeActor id => rfl
  | request command => exact (obey_respects stage command).keeps.library
  | update seconds inputs => exact (update_keeps stage seconds inputs).library

theorem after_timing (stage : Stage) (action : Action) :
    (stage.after action).timing = stage.timing := by
  cases action with
  | setLibrary library => rfl
  | createActor name => rfl
  | removeActor id => rfl
  | request command => exact (obey_respects stage command).keeps.timing
  | update seconds inputs => exact (update_keeps stage seconds inputs).timing

theorem run_timing (stage : Stage) (actions : List Action) :
    (stage.run actions).timing = stage.timing := by
  induction actions generalizing stage with
  | nil => rfl
  | cons action rest ih => rw [run_cons, ih, after_timing]

/-- An action does to a solo what its cues do, unless it removes the actor. -/
theorem after_solo? {stage : Stage} {action : Action} {id : ActorId}
    (fresh : action.isCreation = true → stage.nextId ≠ id)
    (stays : action.removes id = false) :
    (stage.after action).solo? id = (stage.solo? id).map fun solo =>
      solo.afterAll (action.cues stage.timing id stage.library) := by
  cases action with
  | setLibrary library => simp [Stage.after, Action.cues, solo?, actor?, Function.comp_def]
  | createActor name =>
      apply (createActor_solo? (fresh rfl) name).trans
      simp [Action.cues]
  | removeActor other =>
      apply (removeActor_solo? (of_decide_eq_false stays)).trans
      simp [Action.cues]
  | request command => exact (obey_obeys stage command).solo? id
  | update seconds inputs => exact update_solo? stage seconds inputs id

theorem after_solo?_of_absent {stage : Stage} {action : Action} {id : ActorId}
    (fresh : action.isCreation = true → stage.nextId ≠ id) (absent : stage.solo? id = none) :
    (stage.after action).solo? id = none := by
  cases stays : action.removes id with
  | false => rw [after_solo? fresh stays, absent, Option.map_none]
  | true =>
      cases action with
      | removeActor other =>
          rw [of_decide_eq_true stays]
          exact removeActor_solo?_self stage id
      | setLibrary library => cases stays
      | createActor name => cases stays
      | request command => cases stays
      | update seconds inputs => cases stays

/-- What the frame of an action, if it is one, tells of an actor. -/
theorem outputs?_part {stage : Stage} {history : History} {id : ActorId} {solo : Solo}
    (nodup : stage.cast.Nodup) (balanced : Balanced stage history)
    (here : stage.solo? id = some solo) (action : Action) :
    (stage.outputs? action).toList.map (Outputs.part id) =
      (solo.shows (action.cues stage.timing id stage.library)).map (Shown.part id) := by
  cases action with
  | setLibrary library => rfl
  | createActor name => rfl
  | removeActor other => rfl
  | request command =>
      have silent := solo.shows_of_no_tick (command.cue?_isTick stage.timing id stage.library)
      simp [outputs?, Action.cues, silent]
  | update seconds inputs =>
      have silent := solo.shows_of_no_tick (inputs.cues_isTick stage.timing id stage.library)
      have told := update_part nodup balanced seconds inputs id
      rw [here] at told
      simp [outputs?, Action.cues, Solo.shows_append, silent, Solo.shows, Solo.shown?, told, partOf]

theorem outputs?_part_of_absent {stage : Stage} {history : History} {id : ActorId}
    (nodup : stage.cast.Nodup) (balanced : Balanced stage history)
    (absent : stage.solo? id = none) (action : Action) :
    (stage.outputs? action).toList.map (Outputs.part id) =
      List.replicate (if action.isUpdate then 1 else 0) .none := by
  cases action with
  | setLibrary library => rfl
  | createActor name => rfl
  | removeActor other => rfl
  | request command => rfl
  | update seconds inputs =>
      have told := update_part nodup balanced seconds inputs id
      rw [absent] at told
      simp [outputs?, Action.isUpdate, told, partOf]

end Stage

end LimbAnimation
