import LimbAnimation.Library.Failure
import LimbAnimation.Playback.Animator

/-!
# What goes into a stage and what comes out

Before each frame, inputs say how actors stand and what they shall do; after it,
outputs show the pose of each actor and what has happened.
-/

namespace LimbAnimation

/-- How an actor stands; what is not given stays as it was. -/
structure ActorInput where
  actor : ActorId
  procedural : Option Pose
  placement : Option Placement
  additional : Option Restrictions
  deriving DecidableEq

inductive Command where
  | play (actor : ActorId) (key : ClipKey) (speed : Option Single)
  | clear (actor : ActorId)
  | setClock (actor : ActorId) (runs : Bool)
  deriving DecidableEq

structure Inputs where
  actors : List ActorInput
  commands : List Command
  deriving DecidableEq

def Inputs.none : Inputs := ⟨[], []⟩

structure Frame where
  actor : ActorId
  pose : Pose
  restrictions : Restrictions
  deriving DecidableEq

inductive Event where
  | started (actor : ActorId) (playback : PlaybackId) (key : ClipKey)
  | ended (actor : ActorId) (playback : PlaybackId) (key : ClipKey) (timer : Single)
  | rejected (reason : String)
  deriving DecidableEq

def Event.ofFailure (failure : Failure) : Event := .rejected failure.message

def Event.notice? : Event → Option Notice
  | .started .. => none
  | .ended _ _ key timer => some (.playbackFinished key timer)
  | .rejected reason => some (.requestRejected reason)

structure Outputs where
  frames : List Frame
  events : List Event
  deriving DecidableEq

namespace Outputs

def frame? (outputs : Outputs) (actor : ActorId) : Option Frame :=
  outputs.frames.find? fun frame => frame.actor = actor

/-- Whether nothing is shown and nothing has happened. -/
def isEmpty (outputs : Outputs) : Bool := outputs.frames.isEmpty && outputs.events.isEmpty

def notices (outputs : Outputs) : List Notice := outputs.events.filterMap Event.notice?

end Outputs

end LimbAnimation
