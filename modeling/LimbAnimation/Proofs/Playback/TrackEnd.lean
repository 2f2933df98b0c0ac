import LimbAnimation.Proofs.ClipFile.Usable
import LimbAnimation.Proofs.Curve.Scan
import LimbAnimation.Proofs.Playback.Limbs
import Mathlib.Data.List.Find

/-!
# The end of a track

A clip lasts as long as its longest track.  A limb whose track has ended before keeps what it
has at the end of the track: curves are asked for their end, and no change of shape stands
behind it.
-/

namespace LimbAnimation

open Single (InUnit)

namespace Single

/-- A time that has reached the end of a span has reached it also in the quotient, even a
time without end. -/
theorem one_le_div_of_le {time span : Single} (ended : span ≤ time) (positive : 0 < span)
    (spanFinite : span.isFinite = true) : 1 ≤ time / span := by
  by_cases timeFinite : time.isFinite = true
  · exact one_le_div ended positive timeFinite
  · obtain rfl := eq_infinite_of_nonnegative (le_trans (le_of_lt positive) ended) timeFinite
    obtain ⟨rank, spanAt⟩ := isFinite_iff.mp spanFinite
    rw [zero_finiteAt.lt_iff spanAt] at positive
    obtain ⟨negative, magnitude, fits, rfl, rfl⟩ := spanAt.exists_eq
    cases negative with
    | true =>
        simp only [signedUnits, if_true] at positive
        omega
    | false =>
        have endless : infinite false / finite false magnitude fits = infinite false := rfl
        rw [endless]
        exact le_iff.mpr ⟨unitsPerOne, unitsLimit, rank?_one, rfl, by decide⟩

end Single

theorem Curve.queried_of_one_le {query : Single} (ended : 1 ≤ query) : queried query = 1 := by
  have isNumber := Single.isNaN_of_le ended
  rw [queried, isNumber, if_neg Bool.false_ne_true]
  exact Single.eq_one_of_between (Single.le_clampUnit Single.inUnit_one ended)
    (Single.clampUnit_inUnit isNumber).atMostOne

theorem Curve.valueAt?_of_one_le {α : Type} [Blendable α] (curve : Curve α) {query : Single}
    (ended : 1 ≤ query) : curve.valueAt? query = curve.valueAt? 1 := by
  have atEnd : (1 : Single) ≤ 1 := Single.le_refl Single.inUnit_one.isNaN
  rw [valueAt?, valueAt?, queried_of_one_le ended, queried_of_one_le atEnd]

/-- Queries are not clamped here; what holds is that no change stands behind the end. -/
theorem HandShape.Timeline.shapeAt?_of_one_le {timeline : Timeline} {query : Single}
    (within : ∀ change ∈ timeline.changes, change.position ≤ 1) (ended : 1 ≤ query) :
    timeline.shapeAt? query = timeline.shapeAt? 1 := by
  rw [shapeAt?, shapeAt?]
  congr 1
  refine List.find?_congr fun change member => ?_
  have atMost := within change (List.mem_reverse.mp member)
  rw [decide_eq_true atMost, decide_eq_true (Single.le_trans atMost ended)]

namespace Track

variable {track : Track} {placement : Placement} {relative : Bool} {procedural : LimbPose}
  {progress : Single}

theorem Sound.changes_within (sound : track.Sound) (finite : track.duration.isFinite = true) :
    ∀ change ∈ track.shapes.changes, change.position ≤ 1 := by
  intro change member
  have onTrack : change.position ∈ track.positions :=
    List.mem_append_right _ (List.mem_map_of_mem member)
  exact (sound.positions finite change.position onTrack).atMostOne

theorem sample_of_one_le (within : ∀ change ∈ track.shapes.changes, change.position ≤ 1)
    (ended : 1 ≤ progress) :
    track.sample placement relative procedural progress =
      track.sample placement relative procedural 1 := by
  have position : track.positionAt placement relative procedural progress =
      track.positionAt placement relative procedural 1 := by
    simp only [positionAt, Curve.valueAt?_of_one_le _ ended]
  have rotation : track.rotationAt placement procedural progress =
      track.rotationAt placement procedural 1 := by
    simp only [rotationAt, Curve.valueAt?_of_one_le _ ended]
  have scale : track.scaleAt procedural progress = track.scaleAt procedural 1 := by
    simp only [scaleAt, Curve.valueAt?_of_one_le _ ended]
  have shape : track.shapeAt? procedural progress = track.shapeAt? procedural 1 := by
    rw [shapeAt?, shapeAt?, HandShape.Timeline.shapeAt?_of_one_le within ended]
  rw [sample, sample, position, rotation, scale, shape]

end Track

namespace Playback

variable {playback : Playback} {track : Track}

theorem progress_of_positive (positive : 0 < track.duration) :
    playback.progress track = playback.timer / track.duration :=
  if_neg fun atMost => Single.not_lt_of_le atMost positive

/-- A track without duration has ended from the start. -/
theorem progress_of_not_positive (finite : track.duration.isFinite = true)
    (still : ¬ 0 < track.duration) : playback.progress track = 1 :=
  if_pos (Single.le_of_not_lt (Single.isNaN_of_isFinite finite) Single.zero_isNaN still)

theorem one_le_progress (finite : track.duration.isFinite = true)
    (ended : track.duration ≤ playback.timer) : 1 ≤ playback.progress track := by
  by_cases positive : 0 < track.duration
  · rw [progress_of_positive positive]
    exact Single.one_le_div_of_le ended positive finite
  · rw [progress_of_not_positive finite positive]
    exact Single.le_refl Single.inUnit_one.isNaN

theorem sampleLimb_of_ended (sound : track.Sound) (finite : track.duration.isFinite = true)
    (ended : track.duration ≤ playback.timer) (placement : Placement) (relative : Bool)
    (procedural : LimbPose) :
    playback.sampleLimb placement relative (some track) procedural =
      track.sample placement relative procedural 1 :=
  Track.sample_of_one_le (sound.changes_within finite) (one_le_progress finite ended)

/-- The playback at the end of a track. -/
def atEndOf (playback : Playback) (track : Track) : Playback :=
  { playback with timer := track.duration }

theorem sampleLimb_atEndOf (sound : track.Sound) (ended : track.duration ≤ playback.timer)
    (placement : Placement) (relative : Bool) (procedural : LimbPose) :
    playback.sampleLimb placement relative (some track) procedural =
      (playback.atEndOf track).sampleLimb placement relative (some track) procedural := by
  by_cases finite : track.duration.isFinite = true
  · have atEnd : track.duration ≤ (playback.atEndOf track).timer :=
      Single.le_refl (Single.isNaN_left_of_le ended)
    rw [sampleLimb_of_ended sound finite ended, sampleLimb_of_ended sound finite atEnd]
  · -- Only one timer has reached an infinite end.
    have endless := Single.eq_infinite_of_nonnegative sound.duration finite
    have timerEndless : playback.timer = .infinite false := by
      refine Single.eq_infinite_of_nonnegative (Single.le_trans sound.duration ended) ?_
      intro timerFinite
      exact finite (Single.isFinite_of_between sound.duration ended timerFinite)
    have same : playback.atEndOf track = playback := by
      rw [atEndOf, endless, ← timerEndless]
    rw [same]

/-- From the end of its track on, a limb of a clip that was read from a file stays as it is
there: at the last position of the track if this one lasts a finite time or none at all. -/
theorem limbs_hold_from_track_end {key : ClipKey} {content : ClipFile.Bytes} {clip : Clip}
    (read : ClipFile.readClip key content = .ok clip) {track : Track}
    (member : track ∈ clip.tracks) {playback : Playback}
    (ended : track.duration ≤ playback.timer) (placement : Placement) :
    (∀ relative procedural,
      let shown := playback.sampleLimb placement relative (some track) procedural
      shown = (playback.atEndOf track).sampleLimb placement relative (some track) procedural ∧
        (track.duration.isFinite = true →
          shown = track.sample placement relative procedural 1)) ∧
      (playback.clip = clip → ∀ slot, clip.trackFor? placement.flipped slot = some track →
        ∀ procedural, (playback.sample placement procedural).limb slot =
          ((playback.atEndOf track).sample placement procedural).limb slot) := by
  obtain ⟨sheet, _, proper, rfl⟩ := ClipFile.readClip_eq_ok_iff.mp read
  have sound : track.Sound := ((ClipFile.Sheet.clip_sound proper).tracks track member).1
  refine ⟨fun relative procedural => ⟨?_, fun finite => ?_⟩, ?_⟩
  · exact sampleLimb_atEndOf sound ended placement relative procedural
  · exact sampleLimb_of_ended sound finite ended placement relative procedural
  · rintro sameClip slot driven procedural
    have drivenHere : playback.clip.trackFor? placement.flipped slot = some track := by
      rw [sameClip, driven]
    have drivenAtEnd : (playback.atEndOf track).clip.trackFor? placement.flipped slot =
        some track := drivenHere
    rw [sample_limb, sample_limb, drivenHere, drivenAtEnd]
    exact sampleLimb_atEndOf sound ended placement _ (procedural.limb slot)

/-- The body moves for one second and the hand not at all, while the head takes three. -/
theorem body_and_hand_hold_while_head_turns :
    let content := "1\nBODY\n0s 1px 0px\n1s 5px 0px\nHEAD\n3s 45deg\nHAND\n0s fist\n"
      |>.toUTF8.data.toList
    ∃ clip body hand, ClipFile.readClip ⟨"nod", "guard"⟩ content = .ok clip ∧
      clip.body = some body ∧ clip.hands[0]? = some hand ∧
      body.duration < 2 ∧ hand.duration = 0 ∧ 2 < clip.duration ∧
      let playback := { Playback.start ⟨0⟩ clip 1 with timer := 2 }
      ∀ (aim scale : Single) (procedural : Pose),
        let shown := playback.sample ⟨false, aim, scale⟩ procedural
        shown.body = ((playback.atEndOf body).sample ⟨false, aim, scale⟩ procedural).body ∧
        shown.firstHand =
          ((playback.atEndOf hand).sample ⟨false, aim, scale⟩ procedural).firstHand := by
  intro content
  have computed : ((ClipFile.readClip ⟨"nod", "guard"⟩ content).toOption.any fun clip =>
      (clip.body.any fun body => body.duration < 2) ∧
        (clip.hands[0]?.any fun hand => hand.duration = 0) ∧ 2 < clip.duration) = true ∧
      (0 : Single) ≤ 2 := by
    decide +kernel
  obtain ⟨readable, late⟩ := computed
  obtain ⟨clip, found, facts⟩ := (Option.any_eq_true _ _).mp readable
  obtain ⟨bodyFacts, handFacts, unfinished⟩ := of_decide_eq_true facts
  obtain ⟨body, isBody, bodyShort⟩ := (Option.any_eq_true _ _).mp bodyFacts
  obtain ⟨hand, isHand, handShort⟩ := (Option.any_eq_true _ _).mp handFacts
  have bodyFirst := of_decide_eq_true bodyShort
  have handStill := of_decide_eq_true handShort
  have read := toOption_eq_some_iff.mp found
  have bodyMember : body ∈ clip.tracks := by simp [Clip.tracks, isBody]
  have handMember : hand ∈ clip.tracks :=
    List.mem_append_right _ (List.mem_of_getElem? isHand)
  refine ⟨clip, body, hand, read, isBody, isHand, bodyFirst, handStill, unfinished, ?_⟩
  intro playback aim scale procedural shown
  have bodyEnded : body.duration ≤ playback.timer := Single.le_of_lt bodyFirst
  have handEnded : hand.duration ≤ playback.timer := by rwa [handStill]
  obtain ⟨_, bodyHolds⟩ := limbs_hold_from_track_end read bodyMember bodyEnded ⟨false, aim, scale⟩
  obtain ⟨_, handHolds⟩ := limbs_hold_from_track_end read handMember handEnded ⟨false, aim, scale⟩
  exact ⟨bodyHolds rfl .body isBody procedural,
    handHolds rfl (.hand ⟨0, by decide⟩) isHand procedural⟩

end Playback

end LimbAnimation
