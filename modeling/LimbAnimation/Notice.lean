import LimbAnimation.Clip.Basic
import LimbAnimation.Single.Text

/-!
# Notices

Remarks on what happens, for whoever watches the program; they have no effect
on any result.
-/

namespace LimbAnimation

inductive Notice.Level where
  | warning
  | detail
  | trace
  deriving DecidableEq

inductive Notice where
  /-- A clip file asked for a speed that is no positive number. -/
  | speedIgnored (clip : ClipKey) (payload : String) (line : Nat)
  /-- A key was added before the last one of its curve. -/
  | keySetBack (position last : Single)
  /-- All keyframes of a limb have been read. -/
  | blockClosed (clip : ClipKey) (limb : Limb) (keyframes : Nat) (duration : Single)
  /-- A clip file has been read. -/
  | clipRead (clip : ClipKey) (hands : Nat) (duration : Single)
  /-- A clip came from a file into a library. -/
  | clipLoaded (clip : ClipKey) (duration : Single)
  /-- A file has been read again. -/
  | clipReloaded (clip : ClipKey) (path : String)
  /-- A playback has left its stack. -/
  | playbackFinished (clip : ClipKey) (timer : Single)
  /-- A request could not be carried out. -/
  | requestRejected (reason : String)

def Limb.label : Limb → String
  | .body => "Body"
  | .head => "Head"
  | .hand index => "Hand(" ++ toString index ++ ")"

def Single.secondsText (seconds : Single) : String := seconds.fixed 3 ++ "s"

namespace Notice

def level : Notice → Level
  | speedIgnored .. | keySetBack .. | requestRejected .. => .warning
  | blockClosed .. | clipRead .. | clipLoaded .. | clipReloaded .. => .detail
  | playbackFinished .. => .trace

def message : Notice → String
  | speedIgnored clip payload line =>
    "animation " ++ clip.text ++ ": ignoring invalid speed '" ++ payload ++ "' on line " ++
      toString line
  | keySetBack position last =>
    "curve key at " ++ position.plain ++ " appended after key at " ++ last.plain ++
      "; lookups scan in storage order"
  | blockClosed clip limb keyframes duration =>
    "animation " ++ clip.text ++ ": closed " ++ limb.label ++ " block, " ++
      toString keyframes ++ " keys over " ++ duration.secondsText
  | clipRead clip hands duration =>
    "parsed animation " ++ clip.text ++ ": " ++ toString hands ++ " hand tracks, " ++
      duration.secondsText
  | clipLoaded clip duration =>
    "loaded animation " ++ clip.text ++ " (" ++ duration.secondsText ++ ")"
  | clipReloaded clip path => "reloaded animation " ++ clip.text ++ " from " ++ path
  | playbackFinished clip timer =>
    "animation " ++ clip.text ++ " finished at " ++ timer.secondsText
  | requestRejected reason => "animation input rejected: " ++ reason

/-- The notices for keys that stand before the key added just before them;
`last` is the position of that key. -/
def ofPositions : (last : Option Single) → List Single → List Notice
  | _, [] => []
  | none, position :: rest => ofPositions (some position) rest
  | some last, position :: rest =>
    (if position < last then [keySetBack position last] else []) ++
      ofPositions (some position) rest

def ofCurve {α : Type} (curve : Curve α) : List Notice :=
  ofPositions none (curve.keys.map Key.position)

end Notice

end LimbAnimation
