import LimbAnimation.Playback.Animator
import LimbAnimation.Proofs.ClipFile.Usable
import LimbAnimation.Proofs.FirstMatch
import LimbAnimation.Proofs.Playback.Departures

/-!
# Stopping a playback

A playback is stopped by setting its timer to the end of its clip, unless it has passed it.
That end is a number for every clip that is read from a file, so a NaN on the timer gives way
to it, and the playback leaves with the next update.
-/

namespace LimbAnimation

/-- A stopped playback is over, whatever its timer was. -/
theorem Playback.stopped_isOver {playback : Playback}
    (isNumber : playback.clip.duration.isNaN = false) : playback.stopped.isOver = true :=
  decide_eq_true (Single.le_larger isNumber playback.timer)

namespace Stack

variable {stack : Stack} {below above : List Playback} {playback : Playback} {id : PlaybackId}

theorem get?_eq_some_iff :
    stack.get? id = some playback ↔ playback.id = id ∧ ∃ below above,
      stack.playbacks = below ++ playback :: above ∧ ∀ other ∈ below, other.id ≠ id := by
  simp [get?, List.find?_eq_some_iff_append]

theorem get?_isSome_iff :
    (stack.get? id).isSome = true ↔ ∃ playback ∈ stack.playbacks, playback.id = id := by
  simp [get?, List.find?_isSome]

theorem modify_eq (change : Playback → Playback)
    (parted : stack.playbacks = below ++ playback :: above) (own : playback.id = id)
    (lowest : ∀ other ∈ below, other.id ≠ id) :
    stack.modify id change = { stack with playbacks := below ++ change playback :: above } := by
  rw [modify, parted, modifyFirst_append_cons change (fun other member =>
    decide_eq_false (lowest other member)) (decide_eq_true own)]

/-- Playbacks in the order in which those leave that are over. -/
def leaving (playbacks : List Playback) : List Playback :=
  (playbacks.filter Playback.isOver).reverse

theorem leaving_append_cons (isOver : playback.isOver = true) :
    leaving (below ++ playback :: above) = leaving above ++ playback :: leaving below := by
  simp [leaving, isOver]

end Stack

namespace Animator

/-- A playback that is over leaves with an update, between those above it and those below it
that are over as well.  It is reported once, and announced once if it is awaited.  All others
stay. -/
structure Update.Releases (update : Update) (below : List Playback) (finished : Playback)
    (above : List Playback) (change : Playback → Playback) : Prop where
  left : update.left = Stack.leaving above ++ finished :: Stack.leaving below
  ended : update.ended = (Stack.leaving above).map Ended.ofPlayback ++
    ⟨finished.id, finished.clip.key, finished.timer⟩ :: (Stack.leaving below).map Ended.ofPlayback
  announced : update.announced =
    ((Stack.leaving above).filter Playback.awaited).map Ended.ofPlayback ++
      (if finished.awaited then [⟨finished.id, finished.clip.key, finished.timer⟩] else []) ++
        ((Stack.leaving below).filter Playback.awaited).map Ended.ofPlayback
  stay : update.animator.stack.playbacks =
    ((below ++ above).filter fun other => !other.isOver).map change

theorem update_releases {animator : Animator} {below above : List Playback} {finished : Playback}
    (parted : animator.stack.playbacks = below ++ finished :: above)
    (isOver : finished.isOver = true) (seconds : Single) (procedural : Pose) :
    (animator.update seconds procedural).Releases below finished above
      (animator.stack.moved seconds) := by
  have left : (animator.update seconds procedural).left =
      Stack.leaving above ++ finished :: Stack.leaving below := by
    rw [← Stack.leaving_append_cons isOver, ← parted]
    exact Stack.advance_left animator.stack seconds
  refine ⟨left, ?_, ?_, ?_⟩
  · rw [Update.ended, left, List.map_append, List.map_cons]
    rfl
  · rw [Update.announced, left]
    cases awaited : finished.awaited <;> simp [awaited, Ended.ofPlayback]
  · have stays : (animator.update seconds procedural).animator.stack.playbacks = _ :=
      congrArg Stack.playbacks (Stack.advance_stack animator.stack seconds)
    rw [stays, parted]
    simp [isOver]

/-- A request to stop is answered by whether a playback has the id.  If none has it, nothing
changes.  Otherwise the lowest one that has it comes to its end, and nothing else changes; it
leaves with the next update, whether or not the clock runs. -/
theorem stop_ends_lowest_of_id {animator : Animator} (id : PlaybackId)
    (read : ∀ playback ∈ animator.stack.playbacks,
      ∃ key content, ClipFile.readClip key content = .ok playback.clip) :
    let stopping := animator.stopping id
    (stopping.found = true ↔ ∃ playback ∈ animator.stack.playbacks, playback.id = id) ∧
      (stopping.found = false → stopping.animator = animator) ∧
      (stopping.found = true → ∃ below playback above,
        animator.stack.playbacks = below ++ playback :: above ∧ playback.id = id ∧
          (∀ other ∈ below, other.id ≠ id) ∧ playback.stopped.isOver = true ∧
            stopping.animator = { animator with
              stack := ⟨below ++ playback.stopped :: above, animator.stack.clockRuns⟩ } ∧
              ∀ seconds procedural, (stopping.animator.update seconds procedural).Releases
                below playback.stopped above (animator.stack.moved seconds)) := by
  intro stopping
  refine ⟨Stack.get?_isSome_iff, fun missing => ?_, fun found => ?_⟩
  · have unknown : animator.stack.get? id = none :=
      Option.not_isSome_iff_eq_none.mp (Bool.eq_false_iff.mp missing)
    have unchanged : animator.stack.modify id Playback.stopped = animator.stack := by
      rw [Stack.modify, modifyFirst_of_find?_eq_none Playback.stopped unknown]
    exact congrArg (fun stack => { animator with stack := stack }) unchanged
  · obtain ⟨playback, isFound⟩ := Option.isSome_iff_exists.mp found
    obtain ⟨rfl, below, above, parted, lowest⟩ := Stack.get?_eq_some_iff.mp isFound
    have member : playback ∈ animator.stack.playbacks := by simp [parted]
    obtain ⟨key, content, isClip⟩ := read playback member
    obtain ⟨sheet, _, proper, same⟩ := ClipFile.readClip_eq_ok_iff.mp isClip
    have sound : playback.clip.Sound := same ▸ ClipFile.Sheet.clip_sound proper
    have isOver : playback.stopped.isOver = true :=
      Playback.stopped_isOver (Single.isNaN_of_le sound.duration)
    have modified := Stack.modify_eq Playback.stopped parted rfl lowest
    have after : stopping.animator = { animator with
        stack := ⟨below ++ playback.stopped :: above, animator.stack.clockRuns⟩ } :=
      congrArg (fun stack => { animator with stack := stack }) modified
    refine ⟨below, playback, above, parted, rfl, lowest, isOver, after, ?_⟩
    rw [after]
    exact fun seconds procedural => update_releases rfl isOver seconds procedural

/-- Of two playbacks of one id the lower one is stopped, with a NaN on its timer and while the
clock stands still; the step is a NaN, too. -/
theorem stop_ends_lowest_of_twins :
    let content := "1.0\nBODY\n0s 1px 2px\n3s 4px 5px".toUTF8.data.toList
    ∃ clip, ClipFile.readClip ⟨"walk", "guard"⟩ content = .ok clip ∧
      let lower : Playback := ⟨⟨7⟩, clip, -1, .quietNaN, true⟩
      let upper : Playback := ⟨⟨7⟩, clip, 1, -2, true⟩
      let animator : Animator := { start .standard with stack := ⟨[lower, upper], false⟩ }
      let stopping := animator.stopping ⟨7⟩
      stopping.found = true ∧ lower.stopped.isOver = true ∧
        (stopping.animator.update .quietNaN .rest).Releases [] lower.stopped [upper]
          (animator.stack.moved .quietNaN) := by
  intro content
  have readable : (ClipFile.readClip ⟨"walk", "guard"⟩ content).toOption.isSome = true := by
    decide +kernel
  obtain ⟨clip, isClip⟩ := Option.isSome_iff_exists.mp readable
  have isRead := toOption_eq_some_iff.mp isClip
  refine ⟨clip, isRead, ?_⟩
  intro lower upper animator stopping
  have read : ∀ playback ∈ animator.stack.playbacks,
      ∃ key content, ClipFile.readClip key content = .ok playback.clip := by
    intro playback member
    refine ⟨⟨"walk", "guard"⟩, content, isRead.trans ?_⟩
    rcases List.mem_pair.mp member with rfl | rfl <;> rfl
  obtain ⟨found, _, ends⟩ := stop_ends_lowest_of_id ⟨7⟩ read
  have isFound : stopping.found = true := found.mpr ⟨lower, List.mem_cons_self, rfl⟩
  obtain ⟨below, playback, above, parted, own, lowest, isOver, _, releases⟩ := ends isFound
  have nobodyBelow : below = [] := by
    cases below with
    | nil => rfl
    | cons other rest =>
        obtain ⟨rfl, _⟩ := List.cons.inj parted
        exact absurd rfl (lowest _ List.mem_cons_self)
  subst nobodyBelow
  obtain ⟨rfl, rest⟩ := List.cons.inj parted
  subst rest
  exact ⟨isFound, isOver, releases .quietNaN .rest⟩

end Animator

end LimbAnimation
