import LimbAnimation.Playback.Blend
import LimbAnimation.Playback.Sampling
import LimbAnimation.Playback.Stack
import LimbAnimation.Playback.Timing

/-!
# Animators

An animator plays clips on one character.  Each update reads the pose of the
main playback, mixes it with the previous one, and blends the result with the
character's own pose.
-/

namespace LimbAnimation

structure Counter where
  next : UInt32
  deriving DecidableEq

def Counter.start : Counter := ⟨0⟩

/-- The counter after its number has been given out; it wraps around. -/
def Counter.succ (counter : Counter) : Counter := ⟨counter.next + 1⟩

structure Animator where
  stack : Stack
  blend : Blend
  transitionWindow : Single
  /-- Restrictions from outside the clips. -/
  additional : Restrictions
  placement : Placement
  ids : Counter
  /-- The pose that animations gave last. -/
  held : Option Pose
  /-- The pose that the last update gave. -/
  pose : Pose
  /-- The restrictions that the last update gave. -/
  restrictions : Restrictions
  deriving DecidableEq

namespace Animator

def start (timing : Timing) : Animator where
  stack := .empty
  blend := .start timing.mixDuration
  transitionWindow := timing.transitionWindow
  additional := .empty
  placement := .standard
  ids := .start
  held := none
  pose := .rest
  restrictions := .empty

/-- The animator with a playback on top and the mix from the start.  When
nothing was playing, the held pose is forgotten. -/
def push (animator : Animator) (playback : Playback) : Animator :=
  { animator with
    held := if animator.stack.main?.isNone then none else animator.held
    blend := { animator.blend with mix := 0 }
    stack := animator.stack.push playback }

def nextId (animator : Animator) : PlaybackId := ⟨animator.ids.next⟩

/-- The animator with a clip playing on top, under the next id. -/
def play (animator : Animator) (clip : Clip) (speed : Single) : Animator :=
  { animator with ids := animator.ids.succ }.push (.start animator.nextId clip speed)

/-- The animator without playbacks; the fades stay. -/
def clear (animator : Animator) : Animator := { animator with stack := animator.stack.clear }

def stop (animator : Animator) (id : PlaybackId) : Animator :=
  { animator with stack := animator.stack.modify id Playback.stopped }

structure Stopping where
  animator : Animator
  /-- Whether there was a playback of the id. -/
  found : Bool

/-- The animator after a request to stop, and the answer to it. -/
def stopping (animator : Animator) (id : PlaybackId) : Stopping :=
  ⟨animator.stop id, (animator.stack.get? id).isSome⟩

def setClock (animator : Animator) (runs : Bool) : Animator :=
  { animator with stack := animator.stack.setClock runs }

/-- The restrictions that hold now: those of the main playback and the
additional ones. -/
def currentRestrictions (animator : Animator) : Restrictions :=
  ((animator.stack.main?.map Playback.restrictions).getD .empty) ∪ animator.additional

def isPlaying (animator : Animator) : Bool := animator.stack.main?.isSome

/-- The pose of the main playback, mixed with the previous one until the mix is
complete. -/
def sample? (animator : Animator) (procedural : Pose) : Option Pose :=
  match animator.stack.main? with
  | none => none
  | some main =>
    let current := main.sample animator.placement procedural
    if 1 ≤ animator.blend.mix then some current
    else match animator.stack.previous? with
      | none => some current
      | some previous =>
        some ((previous.sample animator.placement procedural).blend current animator.blend.mix)

/-- Where the weight goes: it is pinned while mix transitions are forbidden,
falls when nothing plays or the main playback is about to end, and rises
otherwise. -/
def pull (animator : Animator) : Pull :=
  if animator.currentRestrictions.includes Restriction.preventMixTransition.set then .pinned
  else match animator.stack.main? with
    | some main =>
      if main.timer ≤ main.clip.duration - animator.transitionWindow then .toAnimation
      else .toProcedural
    | none => .toProcedural

def steppedBlend (animator : Animator) (seconds : Single) : Blend :=
  let speed := (animator.stack.main?.map Playback.speed).getD 1
  (animator.blend.stepMix seconds speed).stepWeight seconds animator.transitionWindow
    animator.pull

structure Update where
  animator : Animator
  /-- The playbacks that have left the stack. -/
  left : List Playback

/-- One frame: the pose is read at the current timers, the fades and the stack
move on, and the pose is blended with the character's own one. -/
def update (animator : Animator) (seconds : Single) (procedural : Pose) : Update :=
  let held := (animator.sample? procedural).or animator.held
  let blend := animator.steppedBlend seconds
  let step := animator.stack.advance seconds
  { animator :=
      { animator with
        held := held
        blend := blend
        restrictions := animator.currentRestrictions
        stack := step.stack
        pose := match held with
          | some pose => procedural.blend pose blend.easedWeight
          | none => procedural }
    left := step.left }

def Update.ended (update : Update) : List Ended := update.left.map Ended.ofPlayback

def Update.announced (update : Update) : List Ended :=
  (update.left.filter Playback.awaited).map Ended.ofPlayback

end Animator

end LimbAnimation
