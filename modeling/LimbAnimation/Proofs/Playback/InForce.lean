import LimbAnimation.Playback.Animator
import LimbAnimation.Proofs.Playback.Stack
import LimbAnimation.Proofs.Restrictions.Timeline

/-!
# Restrictions in force

An entry of a timeline is in force from its time until a later entry has begun, and the
last one to the end.  Of the playbacks on a stack only the main one brings restrictions.
-/

namespace LimbAnimation

namespace RestrictionTimeline

/-- The restrictions of the last entry that has begun at a time; none before the first. -/
inductive InForce (timeline : RestrictionTimeline) (time : Single) : Restrictions → Prop where
  | nothing : (∀ entry ∈ timeline.entries, ¬ entry.time ≤ time) → InForce timeline time .empty
  | begun {earlier later : List RestrictionEntry} {entry : RestrictionEntry} :
      timeline.entries = earlier ++ entry :: later → entry.time ≤ time →
      (∀ other ∈ later, ¬ other.time ≤ time) → InForce timeline time entry.restrictions

variable {timeline : RestrictionTimeline} {time : Single}

theorem entryAt?_eq_some_iff {entry : RestrictionEntry} :
    timeline.entryAt? time = some entry ↔ ∃ earlier later,
      timeline.entries = earlier ++ entry :: later ∧ entry.time ≤ time ∧
        ∀ other ∈ later, ¬ other.time ≤ time := by
  rw [entryAt?, List.find?_eq_some_iff_append]
  constructor
  · rintro ⟨begun, later, earlier, reversed, waiting⟩
    refine ⟨earlier.reverse, later.reverse, ?_, by simpa using begun, by simpa using waiting⟩
    rw [← List.reverse_reverse timeline.entries, reversed]
    simp
  · rintro ⟨earlier, later, cut, begun, waiting⟩
    exact ⟨by simpa using begun, later.reverse, earlier.reverse, by simp [cut],
      by simpa using waiting⟩

theorem inForce_iff {set : Restrictions} :
    timeline.InForce time set ↔ timeline.restrictionsAt time = set := by
  constructor
  · intro inForce
    cases inForce with
    | nothing waiting => rw [restrictionsAt, entryAt?_eq_none_iff.mpr waiting]
    | begun cut begun waiting =>
        rw [restrictionsAt, entryAt?_eq_some_iff.mpr ⟨_, _, cut, begun, waiting⟩]
  · rintro rfl
    unfold restrictionsAt
    cases latest : timeline.entryAt? time with
    | none => exact .nothing (entryAt?_eq_none_iff.mp latest)
    | some entry =>
        obtain ⟨earlier, later, cut, begun, waiting⟩ := entryAt?_eq_some_iff.mp latest
        exact .begun cut begun waiting

/-- Once it has begun, the last entry stays in force. -/
theorem restrictionsAt_of_last {last : RestrictionEntry}
    (final : timeline.entries.getLast? = some last) (begun : last.time ≤ time) :
    timeline.restrictionsAt time = last.restrictions := by
  obtain ⟨earlier, entries⟩ := List.getLast?_eq_some_iff.mp final
  simp [restrictionsAt, entryAt?, entries, begun]

end RestrictionTimeline

namespace Stack

/-- The restrictions in force for the main playback; none if all playbacks are over. -/
inductive Brings (stack : Stack) : Restrictions → Prop where
  | nothing : (∀ playback ∈ stack.playbacks, playback.isOver = true) → Brings stack .empty
  | main {below above : List Playback} {main : Playback} {own : Restrictions} :
      stack.playbacks = below ++ main :: above → main.isOver = false →
      (∀ playback ∈ above, playback.isOver = true) →
      main.clip.restrictions.InForce main.timer own → Brings stack own

def ownRestrictions (stack : Stack) : Restrictions :=
  (stack.main?.map Playback.restrictions).getD .empty

theorem brings_iff {stack : Stack} {set : Restrictions} :
    stack.Brings set ↔ stack.ownRestrictions = set := by
  constructor
  · intro brings
    cases brings with
    | nothing isOver => rw [ownRestrictions, main?_eq_none_iff.mpr isOver, Option.map_none,
        Option.getD_none]
    | main parted unfinished isOver inForce =>
        rw [ownRestrictions, main?_eq_some_iff.mpr ⟨_, _, parted, unfinished, isOver⟩]
        exact RestrictionTimeline.inForce_iff.mp inForce
  · rintro rfl
    unfold ownRestrictions
    cases playing : stack.main? with
    | none => exact .nothing (main?_eq_none_iff.mp playing)
    | some main =>
        obtain ⟨below, above, parted, unfinished, isOver⟩ := main?_eq_some_iff.mp playing
        exact .main parted unfinished isOver (RestrictionTimeline.inForce_iff.mpr rfl)

/-- The last entry of the main playback stays in force until the playback is over. -/
theorem Brings.eq_last {stack : Stack} {main : Playback} {set : Restrictions}
    {last : RestrictionEntry} (brings : stack.Brings set) (playing : stack.main? = some main)
    (final : main.clip.restrictions.entries.getLast? = some last)
    (begun : last.time ≤ main.timer) : set = last.restrictions := by
  rw [← brings_iff.mp brings, ownRestrictions, playing]
  exact RestrictionTimeline.restrictionsAt_of_last final begun

end Stack

end LimbAnimation
