import LimbAnimation.Proofs.FirstMatch
import LimbAnimation.Stage.Basic

/-!
# Requests to a stage

Whether a request is refused depends on two things only: who is on the stage and
which clips its library holds.  No request changes either of them, and a refused
one changes nothing at all.
-/

namespace LimbAnimation.Stage

/-- The ids of the actors, in the order of their creation. -/
def cast (stage : Stage) : List ActorId := stage.actors.map Actor.id

theorem actor?_eq_none_iff {stage : Stage} {id : ActorId} :
    stage.actor? id = none ↔ id ∉ stage.cast := by
  simp [actor?, cast]

theorem mem_cast_of_actor? {stage : Stage} {id : ActorId} {actor : Actor}
    (found : stage.actor? id = some actor) : id ∈ stage.cast := by
  apply Decidable.by_contra
  intro absent
  rw [actor?_eq_none_iff.mpr absent] at found
  cases found

theorem id_of_actor? {stage : Stage} {id : ActorId} {actor : Actor}
    (found : stage.actor? id = some actor) : actor.id = id := by
  have matched := List.find?_some found
  simpa using matched

/-- Whoever removes an actor learns whether the actor was there. -/
theorem removeActor_iff {stage : Stage} {id : ActorId} :
    (stage.removeActor id).2 = true ↔ id ∈ stage.cast := by
  simp [removeActor, cast, List.length_filter_eq_length_iff]

/-- Why something for an actor is refused, if it is: the actor is not there. -/
def absence? (stage : Stage) (id : ActorId) : Option Failure :=
  if id ∈ stage.cast then none else some (.actorNotFound id)

/-- Why an input is refused, if it is. -/
def inputRefusal? (stage : Stage) (input : ActorInput) : Option Failure :=
  stage.absence? input.actor

/-- Why a command is refused, if it is: a clip to play has to be in the library,
and every command needs its actor. -/
def commandRefusal? (stage : Stage) : Command → Option Failure
  | .play actor key _ =>
    if stage.library.contains key then stage.absence? actor else some (.clipNotFound key)
  | .clear actor => stage.absence? actor
  | .setClock actor _ => stage.absence? actor

theorem absence?_of_absent {stage : Stage} {id : ActorId} (absent : stage.actor? id = none) :
    stage.absence? id = some (.actorNotFound id) := by
  simp [absence?, actor?_eq_none_iff.mp absent]

theorem absence?_of_found {stage : Stage} {id : ActorId} {actor : Actor}
    (found : stage.actor? id = some actor) : stage.absence? id = none := by
  simp [absence?, mem_cast_of_actor? found]

/-- What no request touches. -/
structure Keeps (stage other : Stage) : Prop where
  cast : other.cast = stage.cast
  library : other.library = stage.library
  timing : other.timing = stage.timing
  ids : other.ids = stage.ids

theorem Keeps.refl (stage : Stage) : Keeps stage stage := ⟨rfl, rfl, rfl, rfl⟩

theorem Keeps.trans {first second third : Stage} (earlier : Keeps first second)
    (later : Keeps second third) : Keeps first third :=
  ⟨later.cast.trans earlier.cast, later.library.trans earlier.library,
    later.timing.trans earlier.timing, later.ids.trans earlier.ids⟩

theorem modifyActor_keeps {change : Actor → Actor}
    (kept : ∀ actor, (change actor).id = actor.id) (stage : Stage) (id : ActorId) :
    Keeps stage (stage.modifyActor id change) :=
  ⟨map_modifyFirst kept stage.actors, rfl, rfl, rfl⟩

/-- As long as ids are not shared, a change of an actor reaches nobody else. -/
theorem mem_modifyActor {stage : Stage} {id : ActorId} {actor other : Actor}
    {change : Actor → Actor} (nodup : stage.cast.Nodup) (found : stage.actor? id = some actor)
    (member : other ∈ (stage.modifyActor id change).actors) :
    other = change actor ∨ (other ∈ stage.actors ∧ other.id ≠ id) := by
  obtain ⟨before, behind, current, next⟩ := modifyFirst_of_find?_eq_some change found
  have same : actor.id = id := id_of_actor? found
  rw [cast, current, List.map_append, List.map_cons, same] at nodup
  obtain ⟨_, ⟨fresh, _⟩, apart⟩ := by
    simpa only [List.nodup_append, List.nodup_cons] using nodup
  simp only [modifyActor, next, List.mem_append, List.mem_cons] at member
  rcases member with earlier | rfl | later
  · refine .inr ⟨by simp [current, earlier], fun equal => ?_⟩
    exact apart other.id (List.mem_map_of_mem earlier) id (by simp) equal
  · exact .inl rfl
  · refine .inr ⟨by simp [current, later], fun equal => fresh ?_⟩
    exact equal ▸ List.mem_map_of_mem later

theorem modifyAnimator_keeps (stage : Stage) (id : ActorId) (change : Animator → Animator) :
    Keeps stage (stage.modifyAnimator id change) :=
  modifyActor_keeps (by intro _; rfl) stage id

theorem announce_keeps (stage : Stage) (event : Event) : Keeps stage (stage.announce event) :=
  ⟨rfl, rfl, rfl, rfl⟩

/-- How a request goes: when it is refused, it fails for the given reason and
nothing has changed; otherwise it succeeds. -/
structure Attempt.Respects {α : Type} (attempt : Attempt α) (stage : Stage)
    (refusal : Option Failure) : Prop where
  refused : ∀ failure, refusal = some failure → attempt = ⟨stage, .error failure⟩
  granted : refusal = none → ∃ value, attempt.result = .ok value
  keeps : Keeps stage attempt.stage

theorem Attempt.Respects.stage_of_error
    {α : Type} {attempt : Attempt α} {stage : Stage} {refusal : Option Failure}
    {failure : Failure} (respects : attempt.Respects stage refusal)
    (failed : attempt.result = .error failure) : attempt.stage = stage := by
  cases outcome : refusal with
  | none =>
      obtain ⟨value, success⟩ := respects.granted outcome
      rw [success] at failed
      cases failed
  | some cause => rw [respects.refused cause outcome]

theorem Attempt.respects_of_error {α : Type} {stage : Stage} {failure : Failure} :
    (⟨stage, .error failure⟩ : Attempt α).Respects stage (some failure) :=
  ⟨by simp, by simp, .refl stage⟩

theorem Attempt.respects_of_ok {α : Type} {stage next : Stage} {value : α}
    (keeps : Keeps stage next) : (⟨next, .ok value⟩ : Attempt α).Respects stage none :=
  ⟨by simp, fun _ => ⟨value, rfl⟩, keeps⟩

theorem change_of_absent {stage : Stage} {id : ActorId} (absent : stage.actor? id = none)
    (change : Actor → Actor) :
    stage.change id change = ⟨stage, .error (.actorNotFound id)⟩ := by
  simp [Stage.change, absent]

theorem change_of_found {stage : Stage} {id : ActorId} {actor : Actor}
    (found : stage.actor? id = some actor) (change : Actor → Actor) :
    stage.change id change = ⟨stage.modifyActor id change, .ok ()⟩ := by
  simp [Stage.change, found]

theorem change_respects {change : Actor → Actor}
    (kept : ∀ actor, (change actor).id = actor.id) (stage : Stage) (id : ActorId) :
    (stage.change id change).Respects stage (stage.absence? id) := by
  cases found : stage.actor? id with
  | none =>
      rw [change_of_absent found, absence?_of_absent found]
      exact Attempt.respects_of_error
  | some actor =>
      rw [change_of_found found, absence?_of_found found]
      exact Attempt.respects_of_ok (modifyActor_keeps kept stage id)

theorem takeInput_respects (stage : Stage) (input : ActorInput) :
    (stage.takeInput input).Respects stage (stage.inputRefusal? input) :=
  change_respects (by intro _; rfl) stage input.actor

theorem clear_respects (stage : Stage) (id : ActorId) :
    (stage.clear id).Respects stage (stage.absence? id) :=
  change_respects (by intro _; rfl) stage id

theorem setClock_respects (stage : Stage) (id : ActorId) (runs : Bool) :
    (stage.setClock id runs).Respects stage (stage.absence? id) :=
  change_respects (by intro _; rfl) stage id

theorem play_of_missing {stage : Stage} {key : ClipKey}
    (missing : stage.library.get? key = none) (id : ActorId) (speed : Option Single) :
    stage.play id key speed = ⟨stage, .error (.clipNotFound key)⟩ := by
  simp [play, missing]

theorem play_of_absent {stage : Stage} {id : ActorId} {key : ClipKey} {clip : Clip}
    (stored : stage.library.get? key = some clip) (absent : stage.actor? id = none)
    (speed : Option Single) :
    stage.play id key speed = ⟨stage, .error (.actorNotFound id)⟩ := by
  simp [play, stored, absent]

/-- A play that succeeds gives out the next id of the actor and is reported with
the next frame. -/
theorem play_of_found {stage : Stage} {id : ActorId} {key : ClipKey} {clip : Clip}
    {actor : Actor} (stored : stage.library.get? key = some clip)
    (found : stage.actor? id = some actor) (speed : Option Single) :
    stage.play id key speed =
      ⟨(stage.modifyAnimator id fun animator =>
          animator.play clip (speed.getD stage.timing.defaultSpeed)).announce
            (.started id actor.animator.nextId clip.key),
        .ok actor.animator.nextId⟩ := by
  simp [play, stored, found]

theorem commandRefusal?_of_missing {stage : Stage} {key : ClipKey}
    (missing : stage.library.get? key = none) (id : ActorId) (speed : Option Single) :
    stage.commandRefusal? (.play id key speed) = some (.clipNotFound key) := by
  simp [commandRefusal?, Library.contains, missing]

theorem commandRefusal?_of_stored {stage : Stage} {key : ClipKey} {clip : Clip}
    (stored : stage.library.get? key = some clip) (id : ActorId) (speed : Option Single) :
    stage.commandRefusal? (.play id key speed) = stage.absence? id := by
  simp [commandRefusal?, Library.contains, stored]

theorem play_respects (stage : Stage) (id : ActorId) (key : ClipKey) (speed : Option Single) :
    (stage.play id key speed).Respects stage (stage.commandRefusal? (.play id key speed)) := by
  cases stored : stage.library.get? key with
  | none =>
      rw [play_of_missing stored, commandRefusal?_of_missing stored]
      exact Attempt.respects_of_error
  | some clip =>
      rw [commandRefusal?_of_stored stored]
      cases found : stage.actor? id with
      | none =>
          rw [play_of_absent stored found, absence?_of_absent found]
          exact Attempt.respects_of_error
      | some actor =>
          rw [play_of_found stored found, absence?_of_found found]
          exact Attempt.respects_of_ok
            ((modifyAnimator_keeps stage id _).trans (announce_keeps _ _))

/-- The ways a command can go.  Every later argument about commands is a case
analysis of this relation. -/
inductive Obeys (stage : Stage) : Command → Attempt Unit → Prop where
  | refused {command : Command} {failure : Failure} :
      stage.commandRefusal? command = some failure →
      Obeys stage command ⟨stage, .error failure⟩
  | played {id : ActorId} {key : ClipKey} {speed : Option Single} {clip : Clip}
      {actor : Actor} :
      stage.library.get? key = some clip → stage.actor? id = some actor →
      Obeys stage (.play id key speed)
        ⟨(stage.modifyAnimator id fun animator =>
            animator.play clip (speed.getD stage.timing.defaultSpeed)).announce
              (.started id actor.animator.nextId clip.key), .ok ()⟩
  | cleared {id : ActorId} {actor : Actor} :
      stage.actor? id = some actor →
      Obeys stage (.clear id) ⟨stage.modifyAnimator id Animator.clear, .ok ()⟩
  | switched {id : ActorId} {actor : Actor} {runs : Bool} :
      stage.actor? id = some actor →
      Obeys stage (.setClock id runs)
        ⟨stage.modifyAnimator id fun animator => animator.setClock runs, .ok ()⟩

theorem obey_obeys (stage : Stage) (command : Command) :
    Obeys stage command (stage.obey command) := by
  cases command with
  | play id key speed =>
      cases stored : stage.library.get? key with
      | none =>
          simp only [obey, play_of_missing stored]
          exact .refused (commandRefusal?_of_missing stored id speed)
      | some clip =>
          have refusal := commandRefusal?_of_stored stored id speed
          cases found : stage.actor? id with
          | none =>
              simp only [obey, play_of_absent stored found]
              exact .refused (refusal.trans (absence?_of_absent found))
          | some actor =>
              simp only [obey, play_of_found stored found]
              exact .played stored found
  | clear id =>
      cases found : stage.actor? id with
      | none =>
          simp only [obey, clear, changeAnimator, change_of_absent found]
          exact .refused (absence?_of_absent found)
      | some actor =>
          simp only [obey, clear, changeAnimator, change_of_found found]
          exact .cleared found
  | setClock id runs =>
      cases found : stage.actor? id with
      | none =>
          simp only [obey, setClock, changeAnimator, change_of_absent found]
          exact .refused (absence?_of_absent found)
      | some actor =>
          simp only [obey, setClock, changeAnimator, change_of_found found]
          exact .switched found

theorem Obeys.respects {stage : Stage} {command : Command} {attempt : Attempt Unit}
    (obeys : Obeys stage command attempt) :
    attempt.Respects stage (stage.commandRefusal? command) := by
  cases obeys with
  | refused refusal =>
      rw [refusal]
      exact Attempt.respects_of_error
  | played stored found =>
      rw [commandRefusal?_of_stored stored, absence?_of_found found]
      exact Attempt.respects_of_ok
        ((modifyAnimator_keeps stage _ _).trans (announce_keeps _ _))
  | cleared found =>
      rw [commandRefusal?, absence?_of_found found]
      exact Attempt.respects_of_ok (modifyAnimator_keeps stage _ _)
  | switched found =>
      rw [commandRefusal?, absence?_of_found found]
      exact Attempt.respects_of_ok (modifyAnimator_keeps stage _ _)

theorem obey_respects (stage : Stage) (command : Command) :
    (stage.obey command).Respects stage (stage.commandRefusal? command) :=
  (obey_obeys stage command).respects

/-- Refusals look at the actors and the library only. -/
theorem Keeps.inputRefusal? {stage other : Stage} (keeps : Keeps stage other) :
    other.inputRefusal? = stage.inputRefusal? := by
  funext input
  simp [Stage.inputRefusal?, absence?, keeps.cast]

theorem Keeps.commandRefusal? {stage other : Stage} (keeps : Keeps stage other) :
    other.commandRefusal? = stage.commandRefusal? := by
  funext command
  cases command <;> simp [Stage.commandRefusal?, absence?, keeps.cast, keeps.library]

theorem applyAll_cons {ι : Type} (apply : Stage → ι → Attempt Unit) (stage : Stage)
    (request : ι) (rest : List ι) :
    (applyAll apply stage (request :: rest)).1 =
      (applyAll apply (apply stage request).stage rest).1 := by
  simp only [applyAll]
  split <;> rfl

theorem applyAll_keeps {ι : Type} {apply : Stage → ι → Attempt Unit}
    {refusal? : Stage → ι → Option Failure}
    (respects : ∀ stage request, (apply stage request).Respects stage (refusal? stage request))
    (stage : Stage) (requests : List ι) :
    Keeps stage (applyAll apply stage requests).1 := by
  induction requests generalizing stage with
  | nil => exact .refl stage
  | cons request rest ih =>
      rw [applyAll_cons]
      exact (respects stage request).keeps.trans (ih _)

theorem takeInputs_keeps (stage : Stage) (inputs : Inputs) :
    Keeps stage (stage.takeInputs inputs).1 :=
  (applyAll_keeps takeInput_respects stage inputs.actors).trans
    (applyAll_keeps obey_respects _ inputs.commands)

end LimbAnimation.Stage
