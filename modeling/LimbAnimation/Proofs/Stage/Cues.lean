import LimbAnimation.Proofs.Stage.Solo
import Mathlib.Data.List.Basic
import Mathlib.Data.List.TakeWhile

/-!
# What makes a difference to an actor

The cues for an actor depend on nothing that is meant for others, and on the
library only as far as the actor plays.
-/

namespace LimbAnimation

/-- The actions before an actor is removed. -/
def stay (id : ActorId) (actions : List Action) : List Action :=
  actions.takeWhile fun action => !action.removes id

/-- The actions from the removal of an actor on. -/
def leave (id : ActorId) (actions : List Action) : List Action :=
  actions.dropWhile fun action => !action.removes id

theorem stay_append_leave (id : ActorId) (actions : List Action) :
    stay id actions ++ leave id actions = actions := List.takeWhile_append_dropWhile

theorem removes_of_mem_stay {id : ActorId} {actions : List Action} {action : Action}
    (member : action ∈ stay id actions) : action.removes id = false := by
  simpa using List.mem_takeWhile_imp member

theorem removes_of_head_leave {id : ActorId} {actions : List Action} {action : Action}
    (first : action ∈ (leave id actions).head?) : action.removes id = true := by
  have stopped := List.head?_dropWhile_not (fun action => !action.removes id) actions
  rw [leave] at first
  rw [first] at stopped
  simpa using stopped

def Command.actor : Command → ActorId
  | .play actor _ _ => actor
  | .clear actor => actor
  | .setClock actor _ => actor

def Command.playsOn (id : ActorId) : Command → Bool
  | .play actor _ _ => actor = id
  | _ => false

def Action.playsOn (id : ActorId) : Action → Bool
  | request command => command.playsOn id
  | update _ inputs => inputs.commands.any (Command.playsOn id)
  | _ => false

/-- The inputs that are for an actor. -/
def Inputs.only (id : ActorId) (inputs : Inputs) : Inputs where
  actors := inputs.actors.filter fun input => input.actor = id
  commands := inputs.commands.filter fun command => command.actor = id

/-- What remains of an action when everything is left out that is for others. -/
def Action.only (id : ActorId) : Action → Option Action
  | setLibrary library => some (setLibrary library)
  | createActor _ => none
  | removeActor other => if other = id then some (removeActor other) else none
  | request command => if command.actor = id then some (request command) else none
  | update seconds inputs => some (update seconds (inputs.only id))

/-- The actions that are for an actor. -/
def only (id : ActorId) (actions : List Action) : List Action :=
  actions.filterMap (Action.only id)

theorem Action.only_removes (id : ActorId) (action : Action) :
    ((action.only id).all fun own => !own.removes id) = !action.removes id := by
  cases action with
  | setLibrary library => rfl
  | createActor name => rfl
  | removeActor other => by_cases same : other = id <;> simp [Action.only, removes, same]
  | request command => by_cases same : command.actor = id <;> simp [Action.only, removes, same]
  | update seconds inputs => rfl

theorem stay_only (id : ActorId) (actions : List Action) :
    stay id (only id actions) = only id (stay id actions) := by
  simp [stay, only, List.takeWhile_filterMap, Action.only_removes]

theorem leave_only (id : ActorId) (actions : List Action) :
    leave id (only id actions) = only id (leave id actions) := by
  simp [leave, only, List.dropWhile_filterMap, Action.only_removes]

theorem updates_only (id : ActorId) (actions : List Action) :
    updates (only id actions) = updates actions := by
  rw [updates, only, List.countP_filterMap]
  congr 1
  funext action
  cases action with
  | setLibrary library => rfl
  | createActor name => rfl
  | removeActor other => by_cases same : other = id <;> simp [Action.only, Action.isUpdate, same]
  | request command =>
      by_cases same : command.actor = id <;> simp [Action.only, Action.isUpdate, same]
  | update seconds inputs => rfl

theorem creations_only (id : ActorId) (actions : List Action) :
    creations (only id actions) = 0 := by
  rw [creations, only, List.countP_filterMap, List.countP_eq_zero]
  intro action _
  cases action with
  | setLibrary library => simp [Action.only, Action.isCreation]
  | createActor name => simp [Action.only]
  | removeActor other => by_cases same : other = id <;> simp [Action.only, Action.isCreation, same]
  | request command =>
      by_cases same : command.actor = id <;> simp [Action.only, Action.isCreation, same]
  | update seconds inputs => simp [Action.only, Action.isCreation]

section Cues

variable (timing : Timing) (id : ActorId)

theorem Command.cue?_of_other {command : Command} (different : command.actor ≠ id)
    (library : Library) : command.cue? timing id library = none := by
  cases command with
  | play actor key speed => exact if_neg different
  | clear actor => exact if_neg different
  | setClock actor runs => exact if_neg different

theorem Inputs.cues_only (inputs : Inputs) (library : Library) :
    (inputs.only id).cues timing id library = inputs.cues timing id library := by
  have onActors : (inputs.only id).actors.filterMap (ActorInput.cue? id) =
      inputs.actors.filterMap (ActorInput.cue? id) := by
    rw [only, List.filterMap_filter]
    congr 1
    funext input
    by_cases same : input.actor = id <;> simp [ActorInput.cue?, same]
  have onCommands : (inputs.only id).commands.filterMap (Command.cue? timing id library) =
      inputs.commands.filterMap (Command.cue? timing id library) := by
    rw [only, List.filterMap_filter]
    congr 1
    funext command
    by_cases same : command.actor = id
    · simp [same]
    · simp [same, Command.cue?_of_other timing id same]
  rw [cues, cues, onActors, onCommands]

/-- Nothing that is for others makes a cue. -/
theorem cues_only (library : Library) (actions : List Action) :
    cues timing id library (only id actions) = cues timing id library actions := by
  induction actions generalizing library with
  | nil => rfl
  | cons action rest ih =>
      cases action with
      | setLibrary next => exact ih next
      | createActor name => exact ih library
      | removeActor other =>
          by_cases same : other = id <;>
            simpa [only, Action.only, same, cues, Action.cues, Action.libraryAfter] using ih library
      | request command =>
          by_cases same : command.actor = id
          · simpa [only, Action.only, same, cues, Action.cues, Action.libraryAfter] using ih library
          · simpa [only, Action.only, same, cues, Action.cues, Action.libraryAfter,
              Command.cue?_of_other timing id same] using ih library
      | update seconds inputs =>
          simpa [only, Action.only, cues, Action.cues, Action.libraryAfter,
            Inputs.cues_only] using ih library

theorem Command.cue?_congr {command : Command} (noPlay : command.playsOn id = false)
    (library other : Library) : command.cue? timing id library = command.cue? timing id other := by
  cases command with
  | play actor key speed =>
      have different : actor ≠ id := of_decide_eq_false noPlay
      simp [Command.cue?, different]
  | clear actor => rfl
  | setClock actor runs => rfl

theorem Action.cues_congr {action : Action} (noPlay : action.playsOn id = false)
    (library other : Library) : action.cues timing id library = action.cues timing id other := by
  cases action with
  | request command => simp only [cues, command.cue?_congr timing id noPlay library other]
  | update seconds inputs =>
      have same : inputs.commands.filterMap (Command.cue? timing id library) =
          inputs.commands.filterMap (Command.cue? timing id other) := by
        apply List.filterMap_congr
        intro command member
        have silent : command.playsOn id = false := by
          simpa using List.any_eq_false.mp noPlay command member
        exact command.cue?_congr timing id silent library other
      simp only [cues, Inputs.cues, same]
  | setLibrary next => rfl
  | createActor name => rfl
  | removeActor other => rfl

/-- An actor who does not play has no use for the library. -/
theorem cues_congr {actions : List Action}
    (noPlay : ∀ action ∈ actions, action.playsOn id = false) (library other : Library) :
    cues timing id library actions = cues timing id other actions := by
  induction actions generalizing library other with
  | nil => rfl
  | cons action rest ih =>
      have here := action.cues_congr timing id (noPlay action List.mem_cons_self) library other
      have later := ih (fun next member => noPlay next (List.mem_cons_of_mem _ member))
      rw [cues, cues, here, later]

/-- An exchange of the library makes no difference to an actor who does not play
any more. -/
theorem cues_stay_setLibrary {later : List Action}
    (noPlay : ∀ action ∈ later, action.playsOn id = false) (library exchanged : Library)
    (first : List Action) :
    cues timing id library (stay id (first ++ .setLibrary exchanged :: later)) =
      cues timing id library (stay id (first ++ later)) := by
  induction first generalizing library with
  | nil =>
      have unplayed : ∀ action ∈ stay id later, action.playsOn id = false := fun action member =>
        noPlay action ((List.takeWhile_sublist _).subset member)
      exact cues_congr timing id unplayed exchanged library
  | cons action rest ih =>
      cases leaves : action.removes id with
      | true => simp [stay, leaves]
      | false => simpa [stay, leaves, cues] using ih (action.libraryAfter library)

theorem updates_leave_setLibrary (exchanged : Library) (first later : List Action) :
    updates (leave id (first ++ .setLibrary exchanged :: later)) =
      updates (leave id (first ++ later)) := by
  induction first with
  | nil => rfl
  | cons action rest ih =>
      cases leaves : action.removes id with
      | true =>
          have quiet : updates (.setLibrary exchanged :: later) = updates later := rfl
          simp [leave, leaves, updates_cons, updates_append, quiet]
      | false => simpa [leave, leaves] using ih

end Cues

end LimbAnimation
