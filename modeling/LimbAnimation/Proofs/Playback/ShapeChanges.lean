import LimbAnimation.Proofs.ClipFile.OneSheet
import LimbAnimation.Proofs.ClipFile.TimeOrder
import LimbAnimation.Proofs.LastMatch
import LimbAnimation.Proofs.Playback.TrackEnd

/-!
# Changes of the shape of a hand

The times of a hand track and the timer of a playback are divided by the same duration and
rounded.  Quotients keep the order of what is divided, so a change whose time has come never
stands behind the timer; but rounding may let one in whose time is still to come.
-/

namespace LimbAnimation

namespace ClipFile

/-- A shape and the time, in seconds, of the keyframe that gives it. -/
structure Look where
  time : Single
  shape : HandShape
  deriving DecidableEq

/-- The shapes that a passage gives, in the order of its lines. -/
def Passage.looks (numbers : Settings) (passage : Passage) : List Look :=
  (passage.notes numbers).filterMap fun note =>
    note.keyframe.shape.map fun shape => ⟨note.keyframe.time, shape⟩

namespace Look

/-- Where the look stands on a track of the given duration. -/
def position (duration : Single) (look : Look) : Single := Block.fraction duration look.time

def change (duration : Single) (look : Look) : HandShape.Change :=
  ⟨look.position duration, look.shape⟩

end Look

/-- Where the looks stand whose time has come. -/
def due (looks : List Look) (timer : Single) : Set Nat :=
  places (fun look => look.time ≤ timer) looks

/-- Where the looks stand that are not behind a position. -/
def passed (looks : List Look) (duration position : Single) : Set Nat :=
  places (fun look => look.position duration ≤ position) looks

section Passages

variable {numbers : Settings}

theorem Passage.changes_track (numbers : Settings) (passage : Passage) (limb : Limb) :
    (passage.track numbers limb).shapes.changes =
      (passage.looks numbers).map (Look.change (passage.track numbers limb).duration) := by
  refine (passage.block numbers limb).track_bears.shapes.trans ?_
  rw [looks, List.map_filterMap]
  show ((passage.notes numbers).map Note.keyframe).filterMap _ = _
  rw [List.filterMap_map]
  refine List.filterMap_congr fun note _ => ?_
  rw [Option.map_map]
  rfl

theorem Passage.looks_bounds (usable : numbers.Usable) (passage : Passage) (limb : Limb) :
    ∀ look ∈ passage.looks numbers,
      0 ≤ look.time ∧ look.time ≤ (passage.track numbers limb).duration := by
  intro look member
  obtain ⟨note, noteMember, made⟩ := List.mem_filterMap.mp member
  obtain ⟨shape, _, rfl⟩ := Option.map_eq_some_iff.mp made
  exact time_bounds usable passage limb note noteMember

end Passages

section Lookup

variable {looks : List Look} {duration position : Single}

theorem shapeAt?_changes (looks : List Look) (duration position : Single) :
    HandShape.Timeline.shapeAt? ⟨looks.map (Look.change duration)⟩ position =
      (looks.reverse.find? fun look => look.position duration ≤ position).map Look.shape := by
  rw [HandShape.Timeline.shapeAt?, ← List.map_reverse, List.find?_map, Option.map_map]
  rfl

theorem shapeAt?_changes_eq_some_iff {shape : HandShape} :
    HandShape.Timeline.shapeAt? ⟨looks.map (Look.change duration)⟩ position = some shape ↔
      ∃ index look, IsGreatest (passed looks duration position) index ∧
        looks[index]? = some look ∧ look.shape = shape := by
  rw [shapeAt?_changes, Option.map_eq_some_iff]
  constructor
  · rintro ⟨look, found, rfl⟩
    obtain ⟨index, greatest, stands⟩ := find?_reverse_eq_some_iff.mp found
    exact ⟨index, look, greatest, stands, rfl⟩
  · rintro ⟨index, look, greatest, stands, rfl⟩
    exact ⟨look, find?_reverse_eq_some_iff.mpr ⟨index, greatest, stands⟩, rfl⟩

theorem shapeAt?_changes_eq_none_iff :
    HandShape.Timeline.shapeAt? ⟨looks.map (Look.change duration)⟩ position = none ↔
      ∀ look ∈ looks, ¬ look.position duration ≤ position := by
  rw [shapeAt?_changes, Option.map_eq_none_iff, find?_reverse_eq_none_iff]
  simp

end Lookup

section Progress

variable {track : Track} {playback : Playback} {time earlier later : Single}

/-- A time that has come does not stand behind the timer. -/
theorem fraction_le_progress (finite : track.duration.isFinite = true)
    (timerFinite : playback.timer.isFinite = true) (nonnegative : 0 ≤ time)
    (isDue : time ≤ playback.timer) :
    Block.fraction track.duration time ≤ playback.progress track := by
  by_cases positive : 0 < track.duration
  · rw [Block.fraction_of_positive positive, Playback.progress_of_positive positive]
    exact Single.div_le_div nonnegative isDue timerFinite finite positive
  · rw [Block.fraction, if_neg positive, Playback.progress_of_not_positive finite positive]
    exact Single.inUnit_one.nonnegative

/-- At a time itself, later times that do not stand behind the timer stand where it does. -/
theorem fraction_equals_fraction (finite : track.duration.isFinite = true)
    (nonnegative : 0 ≤ playback.timer) (atTime : playback.timer.equals earlier = true)
    (ordered : earlier ≤ later) (atMost : later ≤ track.duration)
    (reached : Block.fraction track.duration later ≤ playback.progress track) :
    (Block.fraction track.duration later).equals
      (Block.fraction track.duration earlier) = true := by
  have timerFirst := Single.le_of_equals atTime
  have inOrder : Block.fraction track.duration earlier ≤ Block.fraction track.duration later :=
    Block.fraction_le_fraction (Single.le_trans nonnegative timerFirst) ordered atMost finite
  have back : Block.fraction track.duration later ≤ Block.fraction track.duration earlier := by
    by_cases positive : 0 < track.duration
    · have earlierFinite := Single.isFinite_of_between (Single.le_trans nonnegative timerFirst)
        (Single.le_trans ordered atMost) finite
      rw [Playback.progress_of_positive positive] at reached
      rw [Block.fraction_of_positive positive] at reached ⊢
      rw [Block.fraction_of_positive positive]
      exact Single.le_trans reached
        (Single.div_le_div nonnegative timerFirst earlierFinite finite positive)
    · rw [Block.fraction, Block.fraction, if_neg positive, if_neg positive]
      exact Single.le_refl Single.zero_isNaN
  exact (Single.lt_or_equals_of_le back).resolve_left (Single.not_lt_of_le inOrder)

end Progress

/-- What is shown stands on the track no earlier than the last look that is due; before the
first one only rounding shows anything; and a look is there at its own time, unless another
one at the same position follows it. -/
structure Timely (looks : List Look) (track : Track) (playback : Playback) : Prop where
  shown : ∀ shape, track.shapes.shapeAt? (playback.progress track) = some shape →
    ∃ (index : Nat) (look : Look), looks[index]? = some look ∧ look.shape = shape ∧
      look.position track.duration ≤ playback.progress track ∧
      (IsGreatest (due looks playback.timer) index ∨ ∀ place ∈ due looks playback.timer,
        place < index)
  nothing : track.shapes.shapeAt? (playback.progress track) = none →
    ∀ look ∈ looks, playback.timer < look.time
  atOwnTime : ∀ (index : Nat) (look : Look), looks[index]? = some look →
    playback.timer.equals look.time = true →
      ∃ (index' : Nat) (look' : Look), index ≤ index' ∧ looks[index']? = some look' ∧
        (look'.position track.duration).equals (look.position track.duration) = true ∧
        track.shapes.shapeAt? (playback.progress track) = some look'.shape

section Timely

variable {looks : List Look} {track : Track} {playback : Playback}

/-- A look that is due is not behind the timer. -/
theorem due_subset_passed (nonnegative : ∀ look ∈ looks, 0 ≤ look.time)
    (finite : track.duration.isFinite = true) (timerFinite : playback.timer.isFinite = true) :
    due looks playback.timer ⊆ passed looks track.duration (playback.progress track) := by
  rintro index ⟨look, stands, isDue⟩
  refine ⟨look, stands, decide_eq_true ?_⟩
  exact fraction_le_progress finite timerFinite (nonnegative look (List.mem_of_getElem? stands))
    (of_decide_eq_true isDue)

theorem timely (changes : track.shapes.changes = looks.map (Look.change track.duration))
    (bounds : ∀ look ∈ looks, 0 ≤ look.time ∧ look.time ≤ track.duration)
    (finite : track.duration.isFinite = true)
    (ordered : looks.Pairwise fun earlier later => earlier.time ≤ later.time)
    (timerFinite : playback.timer.isFinite = true) (nonnegative : 0 ≤ playback.timer) :
    Timely looks track playback := by
  have shapes : track.shapes = ⟨looks.map (Look.change track.duration)⟩ :=
    congrArg HandShape.Timeline.mk changes
  have noneBehind : due looks playback.timer ⊆
      passed looks track.duration (playback.progress track) :=
    due_subset_passed (fun look member => (bounds look member).1) finite timerFinite
  constructor
  case shown =>
      intro shape found
      rw [shapes] at found
      obtain ⟨index, look, greatest, stands, rfl⟩ := shapeAt?_changes_eq_some_iff.mp found
      obtain ⟨_, stands', within⟩ := greatest.1
      cases stands.symm.trans stands'
      refine ⟨index, look, stands, rfl, of_decide_eq_true within, ?_⟩
      by_cases isDue : index ∈ due looks playback.timer
      · exact .inl ⟨isDue, fun place placeDue => greatest.2 (noneBehind placeDue)⟩
      · refine .inr fun place placeDue => ?_
        rcases Nat.lt_or_eq_of_le (greatest.2 (noneBehind placeDue)) with less | rfl
        · exact less
        · exact absurd placeDue isDue
  case nothing =>
      intro found look member
      rw [shapes] at found
      have behind := shapeAt?_changes_eq_none_iff.mp found look member
      refine Single.lt_of_not_le (Single.isNaN_of_le (bounds look member).1)
        (Single.isNaN_of_isFinite timerFinite) fun isDue => ?_
      exact behind (fraction_le_progress finite timerFinite (bounds look member).1 isDue)
  case atOwnTime =>
      intro index look stands atTime
      have isDue : index ∈ due looks playback.timer :=
        ⟨look, stands, decide_eq_true
          (Single.le_of_equals ((Single.equals_comm _ _).trans atTime))⟩
      obtain ⟨last, greatest⟩ := exists_isGreatest_places (noneBehind isDue)
      obtain ⟨found, foundStands, within⟩ := greatest.1
      have notEarlier : index ≤ last := greatest.2 (noneBehind isDue)
      have inTime : look.time ≤ found.time := by
        rcases Nat.lt_or_eq_of_le notEarlier with less | rfl
        · exact Curve.pairwise_getElem? ordered stands foundStands less
        · cases stands.symm.trans foundStands
          exact Single.le_refl (Single.isNaN_of_le (bounds look (List.mem_of_getElem? stands)).1)
      refine ⟨last, found, notEarlier, foundStands, ?_, ?_⟩
      · exact fraction_equals_fraction finite nonnegative atTime inTime
          (bounds found (List.mem_of_getElem? foundStands)).2 (of_decide_eq_true within)
      · rw [shapes]
        exact shapeAt?_changes_eq_some_iff.mpr ⟨last, found, greatest, foundStands, rfl⟩

end Timely

/-- The hand tracks of a clip are its hand passages. -/
theorem Sheet.exists_passage_of_hand {sheet : Sheet} {key : ClipKey} {index : Nat} {track : Track}
    (hand : (sheet.clip key).hands[index]? = some track) :
    ∃ passage, (headed .hand sheet.passages)[index]? = some passage ∧
      track = passage.track sheet.numbers (.hand index) := by
  have mapped : ((headed .hand sheet.passages).mapIdx fun index passage =>
      passage.track sheet.numbers (.hand index))[index]? = some track := hand
  rw [List.getElem?_mapIdx] at mapped
  obtain ⟨passage, found, rfl⟩ := Option.map_eq_some_iff.mp mapped
  exact ⟨passage, found, rfl⟩

/-- A hand whose looks are written in the order of time shows none of them late: at each
finite time it shows the last one that is due, or a later one that rounding puts no further
on the track than the timer. -/
theorem hand_shapes_are_never_late {key : ClipKey} {content : Bytes} {clip : Clip}
    (read : readClip key content = .ok clip) :
    ∃ sheet : Sheet, sheet.Written content ∧ (∀ other : Sheet, other.Written content →
      other = sheet) ∧ ∀ (index : Nat) (track : Track), clip.hands[index]? = some track →
        ∃ passage, (headed .hand sheet.passages)[index]? = some passage ∧
          track = passage.track sheet.numbers (.hand index) ∧
          (track.duration.isFinite = true →
            (passage.looks sheet.numbers).Pairwise
              (fun earlier later => earlier.time ≤ later.time) →
            ∀ playback : Playback, playback.timer.isFinite = true → 0 ≤ playback.timer →
              Timely (passage.looks sheet.numbers) track playback) := by
  obtain ⟨sheet, written, proper, rfl⟩ := readClip_eq_ok_iff.mp read
  refine ⟨sheet, written, fun other writtenOther => writtenOther.unique written, ?_⟩
  intro index track hand
  obtain ⟨passage, found, rfl⟩ := Sheet.exists_passage_of_hand hand
  refine ⟨passage, found, rfl, ?_⟩
  intro finite ordered playback timerFinite nonnegative
  have usable : sheet.numbers.Usable := inForce_usable sheet.settings
  exact timely (passage.changes_track sheet.numbers (.hand index))
    (passage.looks_bounds usable (.hand index)) finite ordered timerFinite nonnegative

/-- A hand points at the time that is written for it. -/
theorem hand_points_in_time :
    let content := "1\nHAND\n0s fist\n1s point\n3s grip\n".toUTF8.data.toList
    ∃ clip track, readClip ⟨"sign", "guard"⟩ content = .ok clip ∧
      clip.hands[0]? = some track ∧
      let playback := { Playback.start ⟨0⟩ clip 1 with timer := 1 }
      Timely [⟨0, .fist⟩, ⟨1, .point⟩, ⟨3, .grip⟩] track playback ∧
        track.shapes.shapeAt? (playback.progress track) = some .point := by
  intro content
  let texts := ["1", "HAND", "0s fist", "1s point", "3s grip"].map String.toList
  let passage : Passage := ⟨.hand, [.keyframe "0s fist".toList, .keyframe "1s point".toList,
    .keyframe "3s grip".toList]⟩
  let sheet : Sheet := ⟨[], [passage]⟩
  have computed : ((readClip ⟨"sign", "guard"⟩ content).toOption.any fun clip =>
        clip.hands[0]?.any fun track => track.duration.isFinite = true ∧
          track.shapes.shapeAt?
            ({ Playback.start ⟨0⟩ clip 1 with timer := 1 }.progress track) = some .point) = true ∧
      (Delivery.whole content).lines.mapM decode? = some texts ∧
      significant texts = "1".toList :: texts.tail ∧
      passage.looks sheet.numbers = [⟨0, .fist⟩, ⟨1, .point⟩, ⟨3, .grip⟩] ∧
      (passage.looks sheet.numbers).Pairwise (fun earlier later => earlier.time ≤ later.time) ∧
      (1 : Single).isFinite = true ∧ (0 : Single) ≤ 1 := by decide +kernel
  obtain ⟨readable, decoded, cut, looks, ordered, timerFinite, nonnegative⟩ := computed
  have written : sheet.Written content :=
    ⟨texts, _, texts.tail, decoded, cut, spelled_iff.mpr rfl⟩
  obtain ⟨clip, found, clipFacts⟩ := (Option.any_eq_true _ _).mp readable
  obtain ⟨track, hand, trackFacts⟩ := (Option.any_eq_true _ _).mp clipFacts
  obtain ⟨finite, points⟩ := of_decide_eq_true trackFacts
  have read := toOption_eq_some_iff.mp found
  obtain ⟨_, _, unique, hands⟩ := hand_shapes_are_never_late read
  obtain rfl := unique sheet written
  obtain ⟨only, isOnly, _, inTime⟩ := hands 0 track hand
  obtain rfl : passage = only := Option.some.inj isOnly
  refine ⟨clip, track, read, hand, ?_, points⟩
  rw [← looks]
  exact inTime finite ordered _ timerFinite nonnegative

end ClipFile

end LimbAnimation
