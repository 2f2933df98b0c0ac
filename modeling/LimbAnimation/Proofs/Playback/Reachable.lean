import LimbAnimation.Playback.Animator
import LimbAnimation.Proofs.Single.Order

/-!
# Reachable animators

An animator is reachable when requests have led to it from the start.  The weight
of the animation stays in the unit interval, or it has become a NaN by a time that
was none; and so does the mix.
-/

namespace LimbAnimation.Animator

/-- What an owner does with an animator.  The stack is open to the owner. -/
inductive Request where
  | push (playback : Playback)
  | play (clip : Clip) (speed : Single)
  | clear
  | stop (id : PlaybackId)
  | setClock (runs : Bool)
  | restack (stack : Stack)
  | restrict (additional : Restrictions)
  | place (placement : Placement)
  | update (seconds : Single) (procedural : Pose)

def after (animator : Animator) : Request → Animator
  | .push playback => animator.push playback
  | .play clip speed => animator.play clip speed
  | .clear => animator.clear
  | .stop id => animator.stop id
  | .setClock runs => animator.setClock runs
  | .restack stack => { animator with stack := stack }
  | .restrict additional => { animator with additional := additional }
  | .place placement => { animator with placement := placement }
  | .update seconds procedural => (animator.update seconds procedural).animator

def run (animator : Animator) (requests : List Request) : Animator := requests.foldl after animator

theorem run_concat (animator : Animator) (requests : List Request) (request : Request) :
    animator.run (requests ++ [request]) = (animator.run requests).after request := by
  rw [run, List.foldl_append]
  rfl

inductive Reachable : Animator → Prop where
  | start (timing : Timing) : Reachable (start timing)
  | after {animator : Animator} (before : Reachable animator) (request : Request) :
      Reachable (animator.after request)

theorem pulledWeight_ranged (weight seconds window : Single) (pull : Pull) :
    (Blend.pulledWeight weight seconds window pull).isNaN = true ∨
      Single.InUnit (Blend.pulledWeight weight seconds window pull) := by
  cases pull with
  | pinned => exact Single.clampUnit_ranged _
  | toAnimation => exact Single.clampUnit_ranged _
  | toProcedural => exact Single.clampUnit_ranged _

/-- The weight lies in the unit interval, unless it is a NaN. -/
theorem Reachable.weight_ranged {animator : Animator} (reachable : Reachable animator) :
    animator.blend.weight.isNaN = true ∨ Single.InUnit animator.blend.weight := by
  induction reachable with
  | start timing => exact .inr Single.inUnit_zero
  | after _ request ih =>
      -- Nothing but an update changes the weight.
      cases request with
      | update seconds procedural => exact pulledWeight_ranged _ _ _ _
      | _ => exact ih

/-- The mix lies in the unit interval, unless it is a NaN. -/
theorem Reachable.mix_ranged {animator : Animator} (reachable : Reachable animator) :
    animator.blend.mix.isNaN = true ∨ Single.InUnit animator.blend.mix := by
  induction reachable with
  | start timing => exact .inr Single.inUnit_one
  | after _ request ih =>
      -- A push starts the mix at zero, and an update moves it.
      cases request with
      | push playback => exact .inr Single.inUnit_zero
      | play clip speed => exact .inr Single.inUnit_zero
      | update seconds procedural => exact Single.clampUnit_ranged _
      | _ => exact ih

end LimbAnimation.Animator
