import LimbAnimation.FirstMatch
import LimbAnimation.Notice
import LimbAnimation.Playback.Basic

/-!
# Playback stacks

A stack lists playbacks from the bottom to the top.  The main one is the topmost
that is not over; the one below it that is not over either keeps moving while
the character turns from it to the main one.
-/

namespace LimbAnimation

structure Stack where
  /-- From the bottom to the top. -/
  playbacks : List Playback
  /-- Whether time passes for the playbacks. -/
  clockRuns : Bool
  deriving DecidableEq

structure Ended where
  id : PlaybackId
  key : ClipKey
  timer : Single
  deriving DecidableEq

def Ended.ofPlayback (playback : Playback) : Ended :=
  ⟨playback.id, playback.clip.key, playback.timer⟩

def Ended.notice (ended : Ended) : Notice := .playbackFinished ended.key ended.timer

namespace Stack

/-- No playbacks, and time passes. -/
def empty : Stack := ⟨[], true⟩

def push (stack : Stack) (playback : Playback) : Stack :=
  { stack with playbacks := stack.playbacks ++ [playback] }

/-- The stack without its playbacks; nobody is told. -/
def clear (stack : Stack) : Stack := { stack with playbacks := [] }

def setClock (stack : Stack) (runs : Bool) : Stack := { stack with clockRuns := runs }

/-- The playbacks that are not over, from the top to the bottom. -/
def unfinished (stack : Stack) : List Playback :=
  stack.playbacks.reverse.filter fun playback => !playback.isOver

def main? (stack : Stack) : Option Playback := stack.unfinished[0]?

/-- The topmost playback below the main one that is not over. -/
def previous? (stack : Stack) : Option Playback := stack.unfinished[1]?

def get? (stack : Stack) (id : PlaybackId) : Option Playback :=
  stack.playbacks.find? fun playback => playback.id = id

/-- The stack with its lowest playback of an id changed. -/
def modify (stack : Stack) (id : PlaybackId) (change : Playback → Playback) : Stack :=
  { stack with playbacks := modifyFirst (fun playback => playback.id = id) change stack.playbacks }

def modifyMain (stack : Stack) (change : Playback → Playback) : Stack :=
  { stack with
    playbacks :=
      (modifyFirst (fun playback => !playback.isOver) change stack.playbacks.reverse).reverse }

def isPlaying (stack : Stack) (key : ClipKey) : Bool :=
  stack.playbacks.any fun playback => !playback.isOver && playback.clip.key == key

def isPlayingGroup (stack : Stack) (group : String) : Bool :=
  stack.playbacks.any fun playback => !playback.isOver && playback.clip.key.group == group

structure Step where
  stack : Stack
  /-- The playbacks that have left, from the top to the bottom. -/
  left : List Playback

/-- One pass over playbacks from the bottom to the top: those that are over join
`left` in front, and the others stay, changed. -/
def sweep (change : Playback → Playback) :
    (left : List Playback) → List Playback → List Playback × List Playback
  | left, [] => ([], left)
  | left, playback :: above =>
    if playback.isOver then sweep change (playback :: left) above
    else
      let (stay, left) := sweep change left above
      (change playback :: stay, left)

/-- The stack some seconds later.  Playbacks that are over leave, even when the
clock stands still; a playback that ends in this step leaves in the next one. -/
def advance (stack : Stack) (seconds : Single) : Step :=
  let change (playback : Playback) : Playback :=
    if stack.clockRuns then playback.advanced seconds else playback
  let (stay, left) := sweep change [] stack.playbacks
  ⟨{ stack with playbacks := stay }, left⟩

def Step.ended (step : Step) : List Ended := step.left.map Ended.ofPlayback

def Step.announced (step : Step) : List Ended :=
  (step.left.filter Playback.awaited).map Ended.ofPlayback

end Stack

end LimbAnimation
