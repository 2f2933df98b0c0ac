import Mathlib.Algebra.Group.Nat.Defs
import LimbAnimation.Proofs.Stage.Requests

/-!
# Runs of a stage

A run is a list of actions from outside.  Who is on the stage after a run can be
told from the actions alone: actors are numbered in the order of their creation,
and as long as the numbers do not wrap around, no two are confused.
-/

namespace LimbAnimation

/-- What is done with a stage from outside.  A request is a command given outside
a frame.  The library may be exchanged for any other one; storing a clip, reading
one anew and removing one are cases of that. -/
inductive Action where
  | setLibrary (library : Library)
  | createActor (name : String)
  | removeActor (id : ActorId)
  | request (command : Command)
  | update (seconds : Single) (inputs : Inputs)

namespace Action

def isUpdate : Action → Bool
  | update .. => true
  | _ => false

def isCreation : Action → Bool
  | createActor _ => true
  | _ => false

/-- Whether an action removes the given actor. -/
def removes (id : ActorId) : Action → Bool
  | removeActor other => other = id
  | _ => false

end Action

def creations (actions : List Action) : Nat := actions.countP Action.isCreation

theorem creations_cons (action : Action) (rest : List Action) :
    creations (action :: rest) = creations rest + if action.isCreation then 1 else 0 :=
  List.countP_cons

theorem creations_append (first later : List Action) :
    creations (first ++ later) = creations first + creations later := List.countP_append

def updates (actions : List Action) : Nat := actions.countP Action.isUpdate

theorem updates_cons (action : Action) (rest : List Action) :
    updates (action :: rest) = updates rest + if action.isUpdate then 1 else 0 :=
  List.countP_cons

theorem updates_append (first later : List Action) :
    updates (first ++ later) = updates first + updates later := List.countP_append

namespace Stage

def after (stage : Stage) : Action → Stage
  | .setLibrary library => { stage with library := library }
  | .createActor name => stage.createActor name
  | .removeActor id => (stage.removeActor id).1
  | .request command => (stage.obey command).stage
  | .update seconds inputs => (stage.update seconds inputs).1

/-- The outputs of an action; only a frame has some. -/
def outputs? (stage : Stage) : Action → Option Outputs
  | .update seconds inputs => some (stage.update seconds inputs).2
  | _ => none

def run (stage : Stage) (actions : List Action) : Stage := actions.foldl after stage

def outputs : Stage → List Action → List Outputs
  | _, [] => []
  | stage, action :: rest => (stage.outputs? action).toList ++ (stage.after action).outputs rest

@[simp] theorem run_nil (stage : Stage) : stage.run [] = stage := rfl

@[simp] theorem run_cons (stage : Stage) (action : Action) (rest : List Action) :
    stage.run (action :: rest) = (stage.after action).run rest := rfl

theorem run_append (stage : Stage) (first later : List Action) :
    stage.run (first ++ later) = (stage.run first).run later := List.foldl_append

theorem outputs_append (stage : Stage) (first later : List Action) :
    stage.outputs (first ++ later) = stage.outputs first ++ (stage.run first).outputs later := by
  induction first generalizing stage with
  | nil => rfl
  | cons action rest ih => simp [outputs, ih]

theorem step_cast (stage : Stage) (seconds : Single) :
    (stage.step seconds).1.cast = stage.cast := by
  simp [step, cast, Function.comp_def]

theorem step_frames (stage : Stage) (seconds : Single) :
    (stage.step seconds).2.frames.map Frame.actor = stage.cast := by
  simp [step, cast, Actor.frame, Function.comp_def]

theorem step_events (stage : Stage) (seconds : Single) :
    (stage.step seconds).2.events =
      stage.pending ++ stage.actors.flatMap fun actor => actor.endings (actor.update seconds) := by
  simp [step, List.flatMap_map]

theorem update_events (stage : Stage) (seconds : Single) (inputs : Inputs) :
    (stage.update seconds inputs).2.events =
      (stage.takeInputs inputs).2.map .ofFailure ++
        ((stage.takeInputs inputs).1.pending ++
          (stage.takeInputs inputs).1.actors.flatMap fun actor =>
            actor.endings (actor.update seconds)) := by
  simp only [update, step_events]

theorem step_keeps (stage : Stage) (seconds : Single) :
    Keeps stage (stage.step seconds).1 :=
  ⟨step_cast stage seconds, rfl, rfl, rfl⟩

theorem update_keeps (stage : Stage) (seconds : Single) (inputs : Inputs) :
    Keeps stage (stage.update seconds inputs).1 :=
  (takeInputs_keeps stage inputs).trans (step_keeps _ seconds)

theorem update_frames (stage : Stage) (seconds : Single) (inputs : Inputs) :
    (stage.update seconds inputs).2.frames.map Frame.actor = stage.cast :=
  (step_frames _ seconds).trans (takeInputs_keeps stage inputs).cast

end Stage

/-- How many actors have been created, and who of them has not been removed. -/
structure Roster where
  created : Nat
  present : List ActorId

namespace Roster

def empty : Roster := ⟨0, []⟩

def nextId (roster : Roster) : ActorId := ⟨.ofNat roster.created⟩

def after (roster : Roster) : Action → Roster
  | .createActor _ => ⟨roster.created + 1, roster.present ++ [roster.nextId]⟩
  | .removeActor id => { roster with present := roster.present.filter (· ≠ id) }
  | _ => roster

/-- Who is there in each frame of a run. -/
def casts : Roster → List Action → List (List ActorId)
  | _, [] => []
  | roster, action :: rest =>
    (if action.isUpdate then [roster.present] else []) ++ (roster.after action).casts rest

def run (roster : Roster) (actions : List Action) : Roster := actions.foldl after roster

theorem after_created (roster : Roster) (action : Action) :
    (roster.after action).created = roster.created + if action.isCreation then 1 else 0 := by
  cases action <;> simp [after, Action.isCreation]

theorem run_created (roster : Roster) (actions : List Action) :
    (roster.run actions).created = roster.created + creations actions := by
  induction actions generalizing roster with
  | nil => rfl
  | cons action rest ih =>
      rw [show roster.run (action :: rest) = (roster.after action).run rest from rfl, ih,
        after_created, creations_cons]
      omega

/-- The ids ascend, and the next one is larger than all of them. -/
structure Ascends (roster : Roster) : Prop where
  ordered : roster.present.Pairwise fun left right => left.number < right.number
  below : ∀ id ∈ roster.present, id.number.toNat < roster.created

theorem ascends_after {roster : Roster} (ascends : roster.Ascends) (action : Action)
    (bound : (roster.after action).created ≤ 2 ^ 32) : (roster.after action).Ascends := by
  cases action with
  | createActor name =>
      have few : roster.created < 2 ^ 32 := bound
      have number : roster.nextId.number.toNat = roster.created :=
        UInt32.toNat_ofNat_of_lt few
      constructor
      · simp only [after, List.pairwise_append, List.mem_singleton]
        refine ⟨ascends.ordered, List.pairwise_singleton _ _, ?_⟩
        rintro id member _ rfl
        exact UInt32.lt_iff_toNat_lt.mpr (number.symm ▸ ascends.below id member)
      · intro id member
        simp only [after, List.mem_append, List.mem_singleton] at member ⊢
        rcases member with old | rfl
        · exact Nat.lt_succ_of_lt (ascends.below id old)
        · omega
  | removeActor id =>
      exact ⟨ascends.ordered.filter _, fun other member =>
        ascends.below other (List.mem_filter.mp member).1⟩
  | setLibrary library => exact ascends
  | request command => exact ascends
  | update seconds inputs => exact ascends

theorem ascends_run {roster : Roster} (ascends : roster.Ascends) (actions : List Action)
    (bound : roster.created + creations actions ≤ 2 ^ 32) : (roster.run actions).Ascends := by
  induction actions generalizing roster with
  | nil => exact ascends
  | cons action rest ih =>
      have created := after_created roster action
      rw [creations_cons] at bound
      exact ih (ascends_after ascends action (by omega)) (by omega)

/-- In each frame the actors stand in the order of their creation. -/
theorem Ascends.casts {roster : Roster} (ascends : roster.Ascends) (actions : List Action)
    (bound : roster.created + creations actions ≤ 2 ^ 32) :
    ∀ cast ∈ roster.casts actions,
      cast.Pairwise fun left right => left.number < right.number := by
  induction actions generalizing roster with
  | nil => simp [Roster.casts]
  | cons action rest ih =>
      have created := after_created roster action
      rw [creations_cons] at bound
      intro cast member
      rcases List.mem_append.mp member with now | later
      · split at now
        next update => exact List.mem_singleton.mp now ▸ ascends.ordered
        next => cases now
      · exact ih (ascends_after ascends action (by omega)) (by omega) cast later

theorem ascends_empty : Roster.empty.Ascends := ⟨List.Pairwise.nil, by simp [empty]⟩

theorem Ascends.nodup {roster : Roster} (ascends : roster.Ascends) : roster.present.Nodup :=
  ascends.ordered.imp fun smaller equal => by simp [equal] at smaller

theorem Ascends.nextId_fresh {roster : Roster} (ascends : roster.Ascends)
    (bound : roster.created < 2 ^ 32) : roster.nextId ∉ roster.present := by
  intro member
  have below := ascends.below _ member
  have number : roster.nextId.number.toNat = roster.created := UInt32.toNat_ofNat_of_lt bound
  omega

end Roster

namespace Stage

/-- A roster tells who is on a stage and who comes next. -/
structure Lists (roster : Roster) (stage : Stage) : Prop where
  cast : stage.cast = roster.present
  nextId : stage.nextId = roster.nextId

theorem lists_start (timing : Timing) : Lists .empty (Stage.start timing) := ⟨rfl, rfl⟩

theorem Lists.of_keeps {roster : Roster} {stage other : Stage} (lists : Lists roster stage)
    (keeps : Keeps stage other) : Lists roster other :=
  ⟨keeps.cast.trans lists.cast, by rw [Stage.nextId, keeps.ids]; exact lists.nextId⟩

theorem Lists.after {roster : Roster} {stage : Stage} (lists : Lists roster stage)
    (action : Action) : Lists (roster.after action) (stage.after action) := by
  cases action with
  | setLibrary library => exact ⟨lists.cast, lists.nextId⟩
  | createActor name =>
      constructor
      · simpa [Stage.after, createActor, Roster.after, Stage.cast] using
          ⟨lists.cast, lists.nextId⟩
      · have number : stage.ids.next = UInt32.ofNat roster.created :=
          congrArg ActorId.number lists.nextId
        simp [Stage.after, createActor, Roster.after, Stage.nextId, Roster.nextId,
          Counter.succ, number]
  | removeActor id =>
      refine ⟨?_, lists.nextId⟩
      have present := congrArg (List.filter fun other => decide (other ≠ id)) lists.cast
      simpa [Stage.after, removeActor, Roster.after, Stage.cast, List.filter_map,
        Function.comp_def] using present
  | request command => exact lists.of_keeps (obey_respects stage command).keeps
  | update seconds inputs => exact lists.of_keeps (update_keeps stage seconds inputs)

/-- Each frame shows everybody who is there once, in the order of creation. -/
theorem Lists.casts {roster : Roster} {stage : Stage} (lists : Lists roster stage)
    (actions : List Action) :
    ((stage.outputs actions).map fun outputs => outputs.frames.map Frame.actor) =
      roster.casts actions := by
  induction actions generalizing roster stage with
  | nil => rfl
  | cons action rest ih =>
      have here : ((stage.outputs? action).toList.map fun outputs =>
          outputs.frames.map Frame.actor) =
            if action.isUpdate then [roster.present] else [] := by
        cases action with
        | update seconds inputs =>
            simp [outputs?, Action.isUpdate, update_frames, lists.cast]
        | setLibrary library => rfl
        | createActor name => rfl
        | removeActor id => rfl
        | request command => rfl
      rw [outputs, List.map_append, here, ih (lists.after action), Roster.casts]

theorem Lists.run {roster : Roster} {stage : Stage} (lists : Lists roster stage)
    (actions : List Action) : Lists (roster.run actions) (stage.run actions) := by
  induction actions generalizing roster stage with
  | nil => exact lists
  | cons action rest ih => exact ih (lists.after action)

end Stage

end LimbAnimation
