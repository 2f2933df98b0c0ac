import LimbAnimation.ClipFile.Fault
import LimbAnimation.Clip.Basic

/-!
# Failures

Why a request to the library or to the stage was refused.
-/

namespace LimbAnimation

structure ActorId where
  number : UInt32
  deriving DecidableEq

inductive Failure where
  /-- The clip file of the given title is faulty. -/
  | faultyClip (title : String) (source : ClipFile.FaultyLine)
  /-- A file or a folder cannot be read. -/
  | unreadable (path reason : String)
  | clipNotFound (key : ClipKey)
  | actorNotFound (id : ActorId)
  | invalidTiming (reason : String)
  /-- A text is not the JSON form of a timing. -/
  | unreadableTiming
  deriving DecidableEq

namespace Failure

def message : Failure → String
  | faultyClip title source => "failed to parse animation " ++ title ++ ": " ++ source.message
  | unreadable path reason => "IO error on " ++ path ++ ": " ++ reason
  | clipNotFound key => "Animation not found: " ++ key.text
  | actorNotFound id => "Actor not found: " ++ toString id.number.toNat
  | invalidTiming reason => "Invalid configuration: " ++ reason
  | unreadableTiming => "Invalid configuration: not a timing"

def cause? : Failure → Option String
  | faultyClip _ source => some source.message
  | _ => none

end Failure

end LimbAnimation
