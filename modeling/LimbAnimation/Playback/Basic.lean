import LimbAnimation.Clip.Basic

/-!
# Playbacks

A playback is a clip that is running: a timer on the clip's own time line, the
speed at which it moves, and whether somebody waits for its end.
-/

namespace LimbAnimation

structure PlaybackId where
  number : UInt32
  deriving DecidableEq

structure Playback where
  id : PlaybackId
  clip : Clip
  speed : Single
  /-- Seconds from the start of the clip. -/
  timer : Single
  /-- Whether somebody waits for the end. -/
  awaited : Bool
  deriving DecidableEq

namespace Playback

/-- A clip from its start, for nobody in particular. -/
def start (id : PlaybackId) (clip : Clip) (speed : Single) : Playback :=
  ⟨id, clip, speed, 0, false⟩

/-- Whether the timer has reached the end of the clip. -/
def isOver (playback : Playback) : Bool := decide (playback.clip.duration ≤ playback.timer)

/-- Whether the timer has reached a fraction of the duration. -/
def hasReached (playback : Playback) (fraction : Single) : Bool :=
  decide (playback.clip.duration * fraction ≤ playback.timer)

/-- The playback at a time, the start at the earliest. -/
def setTimer (playback : Playback) (seconds : Single) : Playback :=
  { playback with timer := seconds.larger 0 }

def setSpeed (playback : Playback) (speed : Single) : Playback := { playback with speed := speed }

def stopped (playback : Playback) : Playback :=
  { playback with timer := playback.timer.larger playback.clip.duration }

def advanced (playback : Playback) (seconds : Single) : Playback :=
  { playback with timer := playback.timer + seconds * playback.speed }

def scaledTimer (playback : Playback) : Single := playback.timer * playback.speed

def scaledDuration (playback : Playback) : Single := playback.speed * playback.clip.duration

/-- The position of the timer on a track; a track without duration is at its
end. -/
def progress (playback : Playback) (track : Track) : Single :=
  if track.duration ≤ 0 then 1 else playback.timer / track.duration

def restrictions (playback : Playback) : Restrictions :=
  playback.clip.restrictions.restrictionsAt playback.timer

end Playback

end LimbAnimation
