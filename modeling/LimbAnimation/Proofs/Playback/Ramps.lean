import LimbAnimation.Proofs.Playback.Idle
import LimbAnimation.Proofs.Playback.Range

/-!
# Ramps

As long as nothing is pushed and time does not run backwards, the mix only rises, and an
update moves the weight of the animation and its ease in the direction that the playing
clip asks for.  Neither clamping nor rounding turns a step around.
-/

namespace LimbAnimation

namespace Blend

variable {blend : Blend} {weight seconds speed window : Single}

theorem rate_nonnegative (finite : seconds.isFinite = true) (nonnegative : 0 ≤ seconds)
    {duration : Single} (usable : duration.isFinite = true ∧ 0 < duration)
    (forward : speed.isFinite = true ∧ 0 < speed) : 0 ≤ seconds / duration * speed :=
  Single.mul_nonnegative_of_positive
    (Single.div_nonnegative finite nonnegative usable.1 usable.2) forward.1 forward.2

theorem stepMix_rises (mix : Single.InUnit blend.mix)
    (usable : blend.mixDuration.isFinite = true ∧ 0 < blend.mixDuration)
    (finite : seconds.isFinite = true) (nonnegative : 0 ≤ seconds)
    (forward : speed.isFinite = true ∧ 0 < speed) :
    Single.InUnit (blend.stepMix seconds speed).mix ∧
      blend.mix ≤ (blend.stepMix seconds speed).mix := by
  have raised : blend.mix ≤ blend.mix + seconds / blend.mixDuration * speed :=
    Single.le_add_of_nonnegative mix.isFinite (rate_nonnegative finite nonnegative usable forward)
  rw [stepMix, if_pos usable.2]
  exact ⟨Single.clampUnit_inUnit (Single.isNaN_of_le raised), Single.le_clampUnit mix raised⟩

theorem pulledWeight_toAnimation (inUnit : Single.InUnit weight)
    (finite : seconds.isFinite = true) (nonnegative : 0 ≤ seconds)
    (usable : window.isFinite = true ∧ 0 < window) :
    weight ≤ pulledWeight weight seconds window .toAnimation := by
  rw [pulledWeight, if_pos usable.2]
  exact Single.le_clampUnit inUnit (Single.le_add_of_nonnegative inUnit.isFinite
    (Single.div_nonnegative finite nonnegative usable.1 usable.2))

end Blend

namespace Animator

/-- A request that pushes nothing; and if it is an update, its time is finite and not
negative, and the main playback, if there is one, moves forward. -/
def Smooth (animator : Animator) : Request → Prop
  | .push _ => False
  | .play _ _ => False
  | .update seconds _ => (seconds.isFinite = true ∧ 0 ≤ seconds) ∧
      ∀ main ∈ animator.stack.main?, main.speed.isFinite = true ∧ 0 < main.speed
  | _ => True

instance (animator : Animator) : (request : Request) → Decidable (animator.Smooth request)
  | .push _ => inferInstanceAs (Decidable False)
  | .play _ _ => inferInstanceAs (Decidable False)
  | .update seconds _ => inferInstanceAs (Decidable ((seconds.isFinite = true ∧ 0 ≤ seconds) ∧
      ∀ main ∈ animator.stack.main?, main.speed.isFinite = true ∧ 0 < main.speed))
  | .clear | .stop _ | .setClock _ | .restack _ | .restrict _ | .place _ =>
    inferInstanceAs (Decidable True)

/-- Each request is smooth where it comes. -/
def RunsSmoothly : Animator → List Request → Prop
  | _, [] => True
  | animator, request :: rest =>
    animator.Smooth request ∧ (animator.after request).RunsSmoothly rest

instance RunsSmoothly.decidable (animator : Animator) :
    (requests : List Request) → Decidable (animator.RunsSmoothly requests)
  | [] => inferInstanceAs (Decidable True)
  | request :: rest =>
    have := RunsSmoothly.decidable (animator.after request) rest
    inferInstanceAs (Decidable
      (animator.Smooth request ∧ (animator.after request).RunsSmoothly rest))

/-- A main playback has not come to the window in which its weight falls. -/
def BeforeWindow (animator : Animator) : Prop :=
  ∃ main, animator.stack.main? = some main ∧
    main.timer ≤ main.clip.duration - animator.transitionWindow

section Pull

variable {animator : Animator}

theorem pull_of_forbidden (forbidden : animator.currentRestrictions.forbidsMix = true) :
    animator.pull = .pinned := if_pos forbidden

theorem pull_of_beforeWindow (free : animator.currentRestrictions.forbidsMix = false)
    (before : animator.BeforeWindow) : animator.pull = .toAnimation := by
  obtain ⟨main, playing, early⟩ := before
  have notPinned : ¬ animator.currentRestrictions.includes
      Restriction.preventMixTransition.set = true := by simpa [Restrictions.forbidsMix] using free
  rw [pull, if_neg notPinned, playing]
  exact if_pos early

theorem pull_of_not_beforeWindow (free : animator.currentRestrictions.forbidsMix = false)
    (notBefore : ¬ animator.BeforeWindow) : animator.pull = .toProcedural := by
  have notPinned : ¬ animator.currentRestrictions.includes
      Restriction.preventMixTransition.set = true := by simpa [Restrictions.forbidsMix] using free
  rw [pull, if_neg notPinned]
  cases playing : animator.stack.main? with
  | none => rfl
  | some main => exact if_neg fun early => notBefore ⟨main, playing, early⟩

end Pull

theorem run_append (animator : Animator) (before later : List Request) :
    animator.run (before ++ later) = (animator.run before).run later := List.foldl_append

theorem runsSmoothly_append {animator : Animator} {before later : List Request} :
    animator.RunsSmoothly (before ++ later) ↔
      animator.RunsSmoothly before ∧ (animator.run before).RunsSmoothly later := by
  induction before generalizing animator with
  | nil => exact (and_iff_right trivial).symm
  | cons request rest ih =>
      rw [List.cons_append, RunsSmoothly, RunsSmoothly, ih, and_assoc]
      rfl

section Ramps

variable {timing : Timing} {animator : Animator} {request : Request} {requests : List Request}

/-- The durations of the timing stay, and the ease is up to date, whatever is asked for. -/
theorem run_keeps_timing (timing : Timing) (requests : List Request) :
    let animator := (start timing).run requests
    animator.blend.mixDuration = timing.mixDuration ∧
      animator.transitionWindow = timing.transitionWindow ∧
      animator.blend.easedWeight = easeInOut animator.blend.weight := by
  induction requests using List.reverseRecOn with
  | nil => exact ⟨rfl, rfl, (start_inRange timing).eased⟩
  | append_singleton requests request ih =>
      rw [run_concat]
      cases request with
      | update seconds procedural => exact ⟨ih.1, ih.2.1, rfl⟩
      | _ => exact ih

theorem Smooth.timely (smooth : animator.Smooth request) : request.Timely := by
  cases request with
  | update seconds procedural => exact Single.isNaN_of_isFinite smooth.1.1
  | _ => trivial

/-- The speed at which the mix moves is that of the main playback, or one. -/
theorem speed_forward
    (forward : ∀ main ∈ animator.stack.main?, main.speed.isFinite = true ∧ 0 < main.speed) :
    let speed := (animator.stack.main?.map Playback.speed).getD 1
    speed.isFinite = true ∧ 0 < speed := by
  cases playing : animator.stack.main? with
  | none =>
      have positive : (0 : Single) < 1 := Single.ofNat_positive Nat.one_pos
      exact ⟨Single.inUnit_one.isFinite, positive⟩
  | some main => exact forward main playing

theorem Smooth.mix_rises (smooth : animator.Smooth request) (inRange : InRange timing animator)
    (accepted : timing.checked = .ok timing) (mix : Single.InUnit animator.blend.mix) :
    Single.InUnit (animator.after request).blend.mix ∧
      animator.blend.mix ≤ (animator.after request).blend.mix := by
  cases request with
  | push playback => exact smooth.elim
  | play clip speed => exact smooth.elim
  | update seconds procedural =>
      obtain ⟨⟨finite, nonnegative⟩, forward⟩ := smooth
      exact Blend.stepMix_rises mix (inRange.mixDuration_usable accepted) finite nonnegative
        (speed_forward forward)
  | _ => exact ⟨mix, Single.le_refl mix.isNaN⟩

/-- By a smooth run the blend stays in range and the mix rises. -/
theorem run_mix_rises (accepted : timing.checked = .ok timing) (inRange : InRange timing animator)
    (mix : Single.InUnit animator.blend.mix) (smooth : animator.RunsSmoothly requests) :
    InRange timing (animator.run requests) ∧ Single.InUnit (animator.run requests).blend.mix ∧
      animator.blend.mix ≤ (animator.run requests).blend.mix := by
  induction requests generalizing animator with
  | nil => exact ⟨inRange, mix, Single.le_refl mix.isNaN⟩
  | cons request rest ih =>
      obtain ⟨first, later⟩ := smooth
      obtain ⟨nextMix, rises⟩ := first.mix_rises inRange accepted mix
      obtain ⟨lastRange, lastMix, risesOn⟩ :=
        ih (inRange.after accepted first.timely) nextMix later
      exact ⟨lastRange, lastMix, Single.le_trans rises risesOn⟩

/-- An update moves the weight, and its ease with it, as the playing clip asks for. -/
theorem InRange.update_moves_weight (inRange : InRange timing animator)
    (accepted : timing.checked = .ok timing) {seconds : Single} (finite : seconds.isFinite = true)
    (nonnegative : 0 ≤ seconds) (procedural : Pose) :
    let forbidden := animator.currentRestrictions.forbidsMix
    let next := (animator.update seconds procedural).animator
    (forbidden = true → next.blend.weight = 1 ∧ next.blend.easedWeight = 1) ∧
      (forbidden = false → animator.BeforeWindow →
        animator.blend.weight ≤ next.blend.weight ∧
          animator.blend.easedWeight ≤ next.blend.easedWeight) ∧
      (forbidden = false → ¬ animator.BeforeWindow →
        next.blend.weight ≤ animator.blend.weight ∧
          next.blend.easedWeight ≤ animator.blend.easedWeight) := by
  intro forbidden next
  have usable := (Timing.usable_of_checked accepted).2
  rw [← inRange.transitionWindow] at usable
  have timely : Request.Timely (.update seconds procedural) := Single.isNaN_of_isFinite finite
  have nextRange : InRange timing next := inRange.after accepted timely
  have pulled : next.blend.weight = Blend.pulledWeight animator.blend.weight seconds
      animator.transitionWindow animator.pull := rfl
  refine ⟨fun isForbidden => ?_, fun free before => ?_, fun free notBefore => ?_⟩
  · have full : next.blend.weight = 1 := by
      rw [pulled, pull_of_forbidden isForbidden]
      exact Single.clampUnit_of_inUnit Single.inUnit_one
    rw [nextRange.eased, full]
    exact ⟨rfl, by decide +kernel⟩
  · have rises : animator.blend.weight ≤ next.blend.weight := by
      rw [pulled, pull_of_beforeWindow free before]
      exact Blend.pulledWeight_toAnimation inRange.weight finite nonnegative usable
    rw [inRange.eased, nextRange.eased]
    exact ⟨rises, easeInOut_mono inRange.weight nextRange.weight rises⟩
  · have falls : next.blend.weight ≤ animator.blend.weight := by
      refine Single.le_of_not_lt nextRange.weight.isNaN inRange.weight.isNaN ?_
      rw [pulled, pull_of_not_beforeWindow free notBefore]
      exact pulledWeight_toProcedural (.inr inRange.weight) finite nonnegative _
    rw [inRange.eased, nextRange.eased]
    exact ⟨falls, easeInOut_mono nextRange.weight inRange.weight falls⟩

/-- Take any animator whose timing passed its check and whose mix and weight lie in the unit
interval, and let a smooth run follow.  The mix does not fall, never exceeds one, and stays
one once it is.  Every update sets the weight and its ease to one if mix transitions are
forbidden; else it does not lower them as long as the main playback is before its ending
window, and does not raise them when it is not or when there is none. -/
theorem blend_ramps (accepted : timing.checked = .ok timing) (earlier : List Request)
    (mix : Single.InUnit ((start timing).run earlier).blend.mix)
    (weight : Single.InUnit ((start timing).run earlier).blend.weight)
    (smooth : ((start timing).run earlier).RunsSmoothly requests) :
    let animator := (start timing).run earlier
    (∀ before later, requests = before ++ later →
      let first := (animator.run before).blend.mix
      let last := (animator.run requests).blend.mix
      first ≤ last ∧ last ≤ 1 ∧ (first = 1 → last = 1)) ∧
    ∀ before seconds procedural later, requests = before ++ .update seconds procedural :: later →
      let now := animator.run before
      let forbidden := now.currentRestrictions.forbidsMix
      let next := (now.update seconds procedural).animator
      (forbidden = true → next.blend.weight = 1 ∧ next.blend.easedWeight = 1) ∧
        (forbidden = false → now.BeforeWindow →
          now.blend.weight ≤ next.blend.weight ∧ now.blend.easedWeight ≤ next.blend.easedWeight) ∧
        (forbidden = false → ¬ now.BeforeWindow →
          next.blend.weight ≤ now.blend.weight ∧
            next.blend.easedWeight ≤ now.blend.easedWeight) := by
  intro animator
  obtain ⟨mixDuration, transitionWindow, eased⟩ := run_keeps_timing timing earlier
  have inRange : InRange timing animator := ⟨mixDuration, transitionWindow, .inr mix, weight, eased⟩
  constructor
  · rintro before later rfl first last
    obtain ⟨smoothBefore, smoothLater⟩ := runsSmoothly_append.mp smooth
    obtain ⟨firstRange, firstMix, _⟩ := run_mix_rises accepted inRange mix smoothBefore
    obtain ⟨_, lastMix, rises⟩ := run_mix_rises accepted firstRange firstMix smoothLater
    have parts : animator.run (before ++ later) = (animator.run before).run later :=
      run_append animator before later
    rw [← parts] at lastMix rises
    refine ⟨rises, lastMix.atMostOne, fun complete => ?_⟩
    exact Single.eq_one_of_between (complete ▸ rises) lastMix.atMostOne
  · rintro before seconds procedural later rfl now forbidden next
    obtain ⟨smoothBefore, update, _⟩ := runsSmoothly_append.mp smooth
    have range : InRange timing now := (run_mix_rises accepted inRange mix smoothBefore).1
    exact range.update_moves_weight accepted update.1.1 update.1.2 procedural

/-- A clip plays for two frames and is stopped: the mix rises throughout, and the weight
rises and then falls. -/
theorem blend_ramps_of_stopped_clip :
    let timing : Timing := .standard
    let earlier : List Request := [.play restingClip 1]
    let frame : Request := .update (.ofRatio false 1 20) .rest
    let before : List Request := [frame, frame, .stop ⟨0⟩]
    let animator := (start timing).run earlier
    let now := animator.run before
    let next := animator.run (before ++ [frame])
    timing.checked = .ok timing ∧ Single.InUnit animator.blend.mix ∧
      Single.InUnit animator.blend.weight ∧ animator.RunsSmoothly (before ++ [frame]) ∧
      animator.blend.mix ≤ next.blend.mix ∧ animator.blend.weight < now.blend.weight ∧
      next.blend.weight ≤ now.blend.weight := by
  intro timing earlier frame before animator now next
  have accepted : timing.checked = .ok timing := by decide +kernel
  have mix : Single.InUnit animator.blend.mix := Single.inUnit_zero
  have weight : Single.InUnit animator.blend.weight := Single.inUnit_zero
  have smooth : animator.RunsSmoothly (before ++ [frame]) := by decide +kernel
  have idle : now.stack.main? = none := by decide +kernel
  have stopped : ¬ now.BeforeWindow := fun ⟨_, playing, _⟩ => nomatch idle.symm.trans playing
  have ramps := blend_ramps accepted earlier mix weight smooth
  refine ⟨accepted, mix, weight, smooth, (ramps.1 [] (before ++ [frame]) rfl).1,
    by decide +kernel, ?_⟩
  exact ((ramps.2 before (.ofRatio false 1 20) .rest [] rfl).2.2 (by decide +kernel) stopped).1

end Ramps

end Animator

end LimbAnimation
