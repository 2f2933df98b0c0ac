import LimbAnimation.Proofs.Playback.Easing
import LimbAnimation.Proofs.Playback.Push
import LimbAnimation.Proofs.Single.UnitInterval
import LimbAnimation.Single.Bits
import LimbAnimation.Stage.Setup
import Mathlib.Data.List.Induction

/-!
# The range of a blend

The weight of the animation and the mix move by quotients of times and are clamped to the
unit interval, from which a NaN does not come back.  With a timing that passed its check
the weight is always a number.  The mix is a NaN once an infinite quotient has met a speed
of zero, until the next push.
-/

namespace LimbAnimation

/-- The two durations of a timing that passed its check. -/
theorem Timing.usable_of_checked {timing : Timing} (accepted : timing.checked = .ok timing) :
    (timing.mixDuration.isFinite = true ∧ 0 < timing.mixDuration) ∧
      (timing.transitionWindow.isFinite = true ∧ 0 < timing.transitionWindow) := by
  have none : timing.firstUnusable? = none := by
    unfold checked at accepted
    split at accepted
    next none => exact none
    next => cases accepted
  have usable : ∀ entry ∈ timing.named, isUsable entry.2 = true := by
    simpa [firstUnusable?] using none
  simp only [named, List.forall_mem_cons, isUsable, Bool.and_eq_true, decide_eq_true_eq] at usable
  exact ⟨usable.1, usable.2.1⟩

namespace Blend

variable {blend : Blend} {seconds window : Single}

theorem stepMix_ranged (blend : Blend) (seconds speed : Single) :
    (blend.stepMix seconds speed).mix.isNaN = true ∨
      Single.InUnit (blend.stepMix seconds speed).mix :=
  Single.clampUnit_ranged _

theorem stepMix_isNaN (ranged : blend.mix.isNaN = true ∨ Single.InUnit blend.mix)
    (positive : 0 < blend.mixDuration) (seconds speed : Single) :
    (blend.stepMix seconds speed).mix.isNaN =
      (blend.mix.isNaN || (seconds / blend.mixDuration * speed).isNaN) := by
  rw [stepMix, if_pos positive, Single.clampUnit_isNaN]
  exact Single.add_isNaN (ranged.imp_right Single.InUnit.isFinite)

theorem pulledWeight_inUnit {weight : Single} (inUnit : Single.InUnit weight)
    (isNumber : seconds.isNaN = false) (finite : window.isFinite = true) (positive : 0 < window)
    (pull : Pull) : Single.InUnit (pulledWeight weight seconds window pull) := by
  have step := Single.div_isNaN isNumber finite positive
  unfold pulledWeight
  rw [if_pos positive]
  cases pull with
  | pinned => exact Single.clampUnit_inUnit Single.inUnit_one.isNaN
  | toAnimation =>
      apply Single.clampUnit_inUnit
      rw [Single.add_isNaN (.inr inUnit.isFinite), inUnit.isNaN, step]
      rfl
  | toProcedural =>
      apply Single.clampUnit_inUnit
      rw [Single.add_isNaN (.inr inUnit.isFinite), inUnit.isNaN, Single.neg_isNaN, step]
      rfl

end Blend

namespace Animator

/-- The time of an update is a number. -/
def Request.Timely : Request → Prop
  | .update seconds _ => seconds.isNaN = false
  | _ => True

def Request.startsMix : Request → Bool
  | .push _ => true
  | .play _ _ => true
  | _ => false

/-- An update for which the rate of the mix is no number: an infinity meets a zero, or
the speed of the main playback is none. -/
def Stalls (animator : Animator) : Request → Prop
  | .update seconds _ => ∃ main, animator.stack.main? = some main ∧
      let quotient := seconds / animator.blend.mixDuration
      (main.speed.isNaN = true ∨ (quotient.isInfinite = true ∧ main.speed.equals 0 = true) ∨
        (quotient.equals 0 = true ∧ main.speed.isInfinite = true))
  | _ => False

/-- There was such an update, and no push has started a mix since. -/
def Stalled (animator : Animator) (requests : List Request) : Prop :=
  ∃ before request later, requests = before ++ request :: later ∧
    (animator.run before).Stalls request ∧ ∀ other ∈ later, other.startsMix = false

/-- The blend of an animator of a timing. -/
structure InRange (timing : Timing) (animator : Animator) : Prop where
  mixDuration : animator.blend.mixDuration = timing.mixDuration
  transitionWindow : animator.transitionWindow = timing.transitionWindow
  mix : animator.blend.mix.isNaN = true ∨ Single.InUnit animator.blend.mix
  weight : Single.InUnit animator.blend.weight
  eased : animator.blend.easedWeight = easeInOut animator.blend.weight

section Range

variable {timing : Timing} {animator : Animator} {requests : List Request}

theorem start_inRange (timing : Timing) : InRange timing (start timing) := by
  have eased : (0 : Single) = easeInOut 0 := by decide +kernel
  exact ⟨rfl, rfl, .inr Single.inUnit_one, Single.inUnit_zero, eased⟩

theorem InRange.mixDuration_usable (inRange : InRange timing animator)
    (accepted : timing.checked = .ok timing) :
    animator.blend.mixDuration.isFinite = true ∧ 0 < animator.blend.mixDuration := by
  rw [inRange.mixDuration]
  exact (Timing.usable_of_checked accepted).1

theorem InRange.after (inRange : InRange timing animator) (accepted : timing.checked = .ok timing)
    {request : Request} (timely : request.Timely) : InRange timing (animator.after request) := by
  obtain ⟨mixDuration, transitionWindow, mix, weight, eased⟩ := inRange
  obtain ⟨finite, positive⟩ := (Timing.usable_of_checked accepted).2
  cases request with
  | push playback => exact ⟨mixDuration, transitionWindow, .inr Single.inUnit_zero, weight, eased⟩
  | play clip speed => exact ⟨mixDuration, transitionWindow, .inr Single.inUnit_zero, weight, eased⟩
  | update seconds procedural =>
      refine ⟨mixDuration, transitionWindow, Blend.stepMix_ranged _ _ _, ?_, rfl⟩
      rw [← transitionWindow] at finite positive
      exact Blend.pulledWeight_inUnit weight timely finite positive _
  | _ => exact ⟨mixDuration, transitionWindow, mix, weight, eased⟩

theorem run_inRange (accepted : timing.checked = .ok timing)
    (timely : ∀ request ∈ requests, request.Timely) :
    InRange timing ((start timing).run requests) := by
  induction requests using List.reverseRecOn with
  | nil => exact start_inRange timing
  | append_singleton requests request ih =>
      rw [List.forall_mem_append, List.forall_mem_singleton] at timely
      rw [run_concat]
      exact (ih timely.1).after accepted timely.2

theorem stalls_iff_rate_isNaN (inRange : InRange timing animator)
    (accepted : timing.checked = .ok timing) {seconds : Single} (isNumber : seconds.isNaN = false)
    (procedural : Pose) : animator.Stalls (.update seconds procedural) ↔
      (seconds / animator.blend.mixDuration *
        (animator.stack.main?.map Playback.speed).getD 1).isNaN = true := by
  have duration := inRange.mixDuration_usable accepted
  have quotient := Single.div_isNaN isNumber duration.1 duration.2
  rw [Single.mul_isNaN_iff, quotient]
  cases playing : animator.stack.main? with
  | some main => simp [Stalls, playing]
  | none =>
      have one : (1 : Single).isNaN = false ∧ (1 : Single).isInfinite = false ∧
        (1 : Single).equals 0 = false := by decide +kernel
      simp [Stalls, playing, one]

theorem after_mix_isNaN (inRange : InRange timing animator)
    (accepted : timing.checked = .ok timing) {request : Request} (timely : request.Timely) :
    (animator.after request).blend.mix.isNaN = true ↔ request.startsMix = false ∧
      (animator.blend.mix.isNaN = true ∨ animator.Stalls request) := by
  have zero : ¬ (0 : Single).isNaN = true := by decide +kernel
  cases request with
  | push playback => exact iff_of_false zero fun ⟨keeps, _⟩ => nomatch keeps
  | play clip speed => exact iff_of_false zero fun ⟨keeps, _⟩ => nomatch keeps
  | update seconds procedural =>
      have stepped := Blend.stepMix_isNaN inRange.mix (inRange.mixDuration_usable accepted).2
        seconds ((animator.stack.main?.map Playback.speed).getD 1)
      rw [stalls_iff_rate_isNaN inRange accepted timely, ← Bool.or_eq_true, ← stepped]
      exact (and_iff_right rfl).symm
  | _ => exact ((and_iff_right rfl).trans (or_iff_left id)).symm

theorem Stalls.startsMix {request : Request} (stalls : animator.Stalls request) :
    request.startsMix = false := by
  cases request with
  | update seconds procedural => rfl
  | _ => cases stalls

theorem stalled_concat (animator : Animator) (requests : List Request) (request : Request) :
    animator.Stalled (requests ++ [request]) ↔ request.startsMix = false ∧
      (animator.Stalled requests ∨ (animator.run requests).Stalls request) := by
  constructor
  · rintro ⟨before, stalling, later, cut, stalls, kept⟩
    rcases List.eq_nil_or_concat later with rfl | ⟨rest, last, rfl⟩
    · obtain ⟨rfl, rfl⟩ := List.append_singleton_inj.mp cut
      exact ⟨stalls.startsMix, .inr stalls⟩
    · rw [List.concat_eq_append] at cut kept
      rw [← List.cons_append, ← List.append_assoc] at cut
      obtain ⟨rfl, rfl⟩ := List.append_singleton_inj.mp cut
      rw [List.forall_mem_append, List.forall_mem_singleton] at kept
      exact ⟨kept.2, .inl ⟨before, stalling, rest, rfl, stalls, kept.1⟩⟩
  · rintro ⟨keeps, ⟨before, stalling, later, rfl, stalls, kept⟩ | stalls⟩
    · refine ⟨before, stalling, later ++ [request], by simp, stalls, ?_⟩
      rw [List.forall_mem_append, List.forall_mem_singleton]
      exact ⟨kept, keeps⟩
    · exact ⟨requests, request, [], rfl, stalls, by simp⟩

theorem mix_isNaN_iff_stalled (accepted : timing.checked = .ok timing)
    (timely : ∀ request ∈ requests, request.Timely) :
    ((start timing).run requests).blend.mix.isNaN = true ↔ (start timing).Stalled requests := by
  induction requests using List.reverseRecOn with
  | nil => simp [Stalled, run, start, Blend.start, Single.inUnit_one.isNaN]
  | append_singleton requests request ih =>
      rw [List.forall_mem_append, List.forall_mem_singleton] at timely
      have inRange := run_inRange accepted timely.1
      rw [run_concat, after_mix_isNaN inRange accepted timely.2, stalled_concat, ih timely.1]

/-- From the start of an animator whose timing passed its check, by any requests with
times that are numbers: the weight and its ease lie in the unit interval.  The mix does
so as well, unless an update has stalled it and no push has started it anew; then it is
no number. -/
theorem blend_in_range_unless_stalled (accepted : timing.checked = .ok timing)
    (timely : ∀ request ∈ requests, request.Timely) :
    let blend := ((start timing).run requests).blend
    Single.InUnit blend.weight ∧ Single.InUnit blend.easedWeight ∧
      blend.easedWeight = easeInOut blend.weight ∧
      (blend.mix.isNaN = true ↔ (start timing).Stalled requests) ∧
      (¬ (start timing).Stalled requests → Single.InUnit blend.mix) := by
  intro blend
  have inRange := run_inRange accepted timely
  have stalled := mix_isNaN_iff_stalled accepted timely
  have eased : Single.InUnit blend.easedWeight := by
    rw [inRange.eased]
    exact easeInOut_inUnit inRange.weight
  refine ⟨inRange.weight, eased, inRange.eased, stalled, fun flows => ?_⟩
  exact inRange.mix.resolve_left fun isNaN => flows (stalled.mp isNaN)

/-- A quarter of a second is more than the smallest duration by too much for a single;
at a speed of one the mix is complete all the same. -/
theorem standing_blend_in_range :
    let timing : Timing := { Timing.standard with mixDuration := .ofBits 1 }
    let requests : List Request := [.play (standing 0) 1, .update (.ofRatio false 1 4) .rest]
    timing.checked = .ok timing ∧ (∀ request ∈ requests, request.Timely) ∧
      Single.InUnit ((start timing).run requests).blend.mix := by
  intro timing requests
  have accepted : timing.checked = .ok timing := by decide +kernel
  have timely : ∀ request ∈ requests, request.Timely := by
    simp [requests, Request.Timely]
    decide +kernel
  obtain ⟨_, _, _, stalled, inUnit⟩ := blend_in_range_unless_stalled accepted timely
  refine ⟨accepted, timely, inUnit fun stalls => ?_⟩
  have isNumber : ((start timing).run requests).blend.mix.isNaN = false := by decide +kernel
  rw [stalled.mpr stalls] at isNumber
  cases isNumber

/-- At a speed of zero the mix becomes a NaN. -/
theorem mix_of_still_clip_isNaN :
    let timing : Timing := { Timing.standard with mixDuration := .ofBits 1 }
    let requests : List Request := [.play (standing 0) 0, .update 1 .rest]
    timing.checked = .ok timing ∧ (∀ request ∈ requests, request.Timely) ∧
      (0 : Single).isFinite = true ∧ (1 : Single).isFinite = true ∧
      ((start timing).run requests).blend.mix.isNaN = true := by
  intro timing requests
  have timely : ∀ request ∈ requests, request.Timely := by
    simp [requests, Request.Timely]
    decide +kernel
  exact ⟨by decide +kernel, timely, by decide +kernel⟩

end Range

end Animator

end LimbAnimation
