import LimbAnimation.Library.Basic
import LimbAnimation.Stage.Exchange

/-!
# Stages

A stage holds a library and the actors that play clips from it, and steps all
actors together.  What cannot be done is reported and changes nothing.
-/

namespace LimbAnimation

structure Actor where
  id : ActorId
  name : String
  animator : Animator
  /-- The pose that the actor has of its own. -/
  procedural : Pose
  deriving DecidableEq

namespace Actor

def withInput (actor : Actor) (input : ActorInput) : Actor :=
  { actor with
    procedural := input.procedural.getD actor.procedural
    animator :=
      { actor.animator with
        placement := input.placement.getD actor.animator.placement
        additional := input.additional.getD actor.animator.additional } }

def update (actor : Actor) (seconds : Single) : Animator.Update :=
  actor.animator.update seconds actor.procedural

def frame (actor : Actor) (update : Animator.Update) : Frame :=
  ⟨actor.id, update.animator.pose, update.animator.restrictions⟩

def endings (actor : Actor) (update : Animator.Update) : List Event :=
  update.ended.map fun ended => .ended actor.id ended.id ended.key ended.timer

end Actor

structure Stage where
  timing : Timing
  ids : Counter
  library : Library
  /-- In the order of their creation. -/
  actors : List Actor
  /-- What has happened since the last frame. -/
  pending : List Event
  deriving DecidableEq

namespace Stage

def start (timing : Timing) : Stage := ⟨timing, .start, .empty, [], []⟩

def nextId (stage : Stage) : ActorId := ⟨stage.ids.next⟩

/-- The stage with one more actor, under the next id. -/
def createActor (stage : Stage) (name : String) : Stage :=
  { stage with
    ids := stage.ids.succ
    actors := stage.actors ++ [⟨stage.nextId, name, .start stage.timing, .rest⟩] }

def actor? (stage : Stage) (id : ActorId) : Option Actor :=
  stage.actors.find? fun actor => actor.id = id

/-- The stage without an actor, and whether the actor was there. -/
def removeActor (stage : Stage) (id : ActorId) : Stage × Bool :=
  let others := stage.actors.filter fun actor => actor.id ≠ id
  ({ stage with actors := others }, others.length != stage.actors.length)

def modifyActor (stage : Stage) (id : ActorId) (change : Actor → Actor) : Stage :=
  { stage with actors := modifyFirst (fun actor => actor.id = id) change stage.actors }

/-- The stage with the animator of an actor changed. -/
def modifyAnimator (stage : Stage) (id : ActorId) (change : Animator → Animator) : Stage :=
  stage.modifyActor id fun actor => { actor with animator := change actor.animator }

def announce (stage : Stage) (event : Event) : Stage :=
  { stage with pending := stage.pending ++ [event] }

structure Attempt (α : Type) where
  stage : Stage
  result : Except Failure α

/-- Changes an actor, who has to be there. -/
def change (stage : Stage) (id : ActorId) (change : Actor → Actor) : Attempt Unit :=
  match stage.actor? id with
  | some _ => ⟨stage.modifyActor id change, .ok ()⟩
  | none => ⟨stage, .error (.actorNotFound id)⟩

/-- Changes the animator of an actor, who has to be there. -/
def changeAnimator (stage : Stage) (id : ActorId) (change : Animator → Animator) :
    Attempt Unit :=
  stage.change id fun actor => { actor with animator := change actor.animator }

/-- Plays a clip of the library on an actor, at the usual speed unless another
one is given. -/
def play (stage : Stage) (id : ActorId) (key : ClipKey) (speed : Option Single) :
    Attempt PlaybackId :=
  match stage.library.get? key with
  | none => ⟨stage, .error (.clipNotFound key)⟩
  | some clip =>
    match stage.actor? id with
    | none => ⟨stage, .error (.actorNotFound id)⟩
    | some actor =>
      let playback := actor.animator.nextId
      let playing := stage.modifyAnimator id fun animator =>
        animator.play clip (speed.getD stage.timing.defaultSpeed)
      ⟨playing.announce (.started id playback clip.key), .ok playback⟩

def clear (stage : Stage) (id : ActorId) : Attempt Unit := stage.changeAnimator id Animator.clear

def setClock (stage : Stage) (id : ActorId) (runs : Bool) : Attempt Unit :=
  stage.changeAnimator id fun animator => animator.setClock runs

def takeInput (stage : Stage) (input : ActorInput) : Attempt Unit :=
  stage.change input.actor fun actor => actor.withInput input

def obey (stage : Stage) : Command → Attempt Unit
  | .play actor key speed =>
    let attempt := stage.play actor key speed
    ⟨attempt.stage, attempt.result.map fun _ => ()⟩
  | .clear actor => stage.clear actor
  | .setClock actor runs => stage.setClock actor runs

/-- The stage after a list of requests, and the failures of those that could not
be carried out. -/
def applyAll {ι : Type} (apply : Stage → ι → Attempt Unit) :
    Stage → List ι → Stage × List Failure
  | stage, [] => (stage, [])
  | stage, request :: rest =>
    let attempt := apply stage request
    let (stage, failures) := applyAll apply attempt.stage rest
    match attempt.result with
    | .ok _ => (stage, failures)
    | .error failure => (stage, failure :: failures)

/-- The stage after all inputs, and the failures. -/
def takeInputs (stage : Stage) (inputs : Inputs) : Stage × List Failure :=
  let (stage, inputFailures) := applyAll takeInput stage inputs.actors
  let (stage, commandFailures) := applyAll obey stage inputs.commands
  (stage, inputFailures ++ commandFailures)

/-- The stage once every actor has moved on.  The outputs tell of what has
started, then of what has ended. -/
def step (stage : Stage) (seconds : Single) : Stage × Outputs :=
  let updates := stage.actors.map fun actor => (actor, actor.update seconds)
  let outputs : Outputs :=
    { frames := updates.map fun (actor, update) => actor.frame update
      events := stage.pending ++ updates.flatMap fun (actor, update) => actor.endings update }
  ({ stage with
      actors := updates.map fun (actor, update) => { actor with animator := update.animator }
      pending := [] }, outputs)

/-- One frame: the inputs are taken, then every actor moves on.  The outputs
tell of failures first. -/
def update (stage : Stage) (seconds : Single) (inputs : Inputs) : Stage × Outputs :=
  let (stage, failures) := stage.takeInputs inputs
  let (stage, outputs) := stage.step seconds
  (stage, { outputs with events := failures.map Event.ofFailure ++ outputs.events })

end Stage

end LimbAnimation
