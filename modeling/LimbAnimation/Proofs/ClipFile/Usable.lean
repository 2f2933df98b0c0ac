import LimbAnimation.Proofs.ClipFile.Grammar
import LimbAnimation.Proofs.ClipFile.Keyframes

/-!
# The numbers of clips

A clip is usable when no number in it is infinite or a NaN and all positions lie in
the unit interval.  The clip of a file is, unless a conversion has led out of range:
then a time or a place is infinite, and the positions on a track of infinite duration
are of no use.
-/

namespace LimbAnimation

open Single (InUnit)

namespace Curve

variable {α : Type}

/-- The keys of a curve; none for a missing one. -/
def keysOr0 (curve : Option (Curve α)) : List (Key α) := (curve.map keys).getD []

theorem Bears.keysOr0_eq {curve : Option (Curve α)} {keys : List (Key α)}
    (bears : Curve.Bears curve keys) : keysOr0 curve = keys := by
  cases curve with
  | none => exact bears.symm
  | some curve => exact bears.2

def values (curve : Option (Curve α)) : List α := (keysOr0 curve).map Key.value

def positions (curve : Option (Curve α)) : List Single := (keysOr0 curve).map Key.position

end Curve

namespace Track

/-- The positions on all curves and those at which the shape changes. -/
def positions (track : Track) : List Single :=
  Curve.positions track.translation ++ Curve.positions track.rotation ++
    Curve.positions track.scale ++ track.shapes.changes.map HandShape.Change.position

structure Usable (track : Track) : Prop where
  duration : track.duration.isFinite = true
  places : ∀ place ∈ Curve.values track.translation, place.isFinite = true
  rotations : ∀ rotation ∈ Curve.values track.rotation, rotation.isFinite = true
  scales : ∀ scale ∈ Curve.values track.scale, scale.isFinite = true
  positions : ∀ position ∈ track.positions, InUnit position

/-- What holds of a track even if conversions have led out of range. -/
structure Sound (track : Track) : Prop where
  duration : 0 ≤ track.duration
  places : ∀ place ∈ Curve.values track.translation, place.isNumber = true
  rotations : ∀ rotation ∈ Curve.values track.rotation, rotation.isFinite = true
  scales : ∀ scale ∈ Curve.values track.scale, scale.isFinite = true
  positions : track.duration.isFinite = true → ∀ position ∈ track.positions, InUnit position

end Track

namespace Clip

structure Usable (clip : Clip) : Prop where
  duration : clip.duration.isFinite = true
  restrictions : ∀ entry ∈ clip.restrictions.entries, entry.time.isFinite = true
  tracks : ∀ track ∈ clip.tracks, track.Usable

/-- What holds of a clip even if conversions have led out of range. -/
structure Sound (clip : Clip) : Prop where
  duration : 0 ≤ clip.duration
  restrictions : ∀ entry ∈ clip.restrictions.entries,
    0 ≤ entry.time ∧ entry.time ≤ clip.duration
  tracks : ∀ track ∈ clip.tracks, track.Sound ∧ track.duration ≤ clip.duration

theorem Sound.usable_iff {clip : Clip} (sound : clip.Sound) :
    clip.Usable ↔ clip.duration.isFinite = true ∧
      ∀ track ∈ clip.tracks, ∀ place ∈ Curve.values track.translation, place.isFinite = true := by
  constructor
  · intro usable
    exact ⟨usable.duration, fun track member => (usable.tracks track member).places⟩
  · rintro ⟨duration, places⟩
    refine ⟨duration, fun entry member => ?_, fun track member => ?_⟩
    · obtain ⟨nonnegative, atMost⟩ := sound.restrictions entry member
      exact Single.isFinite_of_between nonnegative atMost duration
    · obtain ⟨trackSound, atMost⟩ := sound.tracks track member
      have trackDuration := Single.isFinite_of_between trackSound.duration atMost duration
      exact ⟨trackDuration, places track member, trackSound.rotations, trackSound.scales,
        trackSound.positions trackDuration⟩

end Clip

namespace ClipFile

namespace Block

section Channels

variable {α : Type} {block : Block} {channel : Keyframe → Option α}

theorem keysOr0_curve? : Curve.keysOr0 (block.curve? channel) = block.keys channel :=
  (block.curve?_bears channel).keysOr0_eq

theorem exists_keyframe_of_key {key : Key α} (member : key ∈ block.keys channel) :
    ∃ keyframe ∈ block.keyframes, key.value ∈ channel keyframe ∧
      key.position = fraction block.duration keyframe.time := by
  obtain ⟨keyframe, keyframeMember, made⟩ := List.mem_filterMap.mp member
  obtain ⟨value, given, rfl⟩ := Option.map_eq_some_iff.mp made
  exact ⟨keyframe, keyframeMember, given, rfl⟩

theorem forall_values_curve? {Holds : α → Prop}
    (each : ∀ keyframe ∈ block.keyframes, ∀ value ∈ channel keyframe, Holds value) :
    ∀ value ∈ Curve.values (block.curve? channel), Holds value := by
  rw [Curve.values, keysOr0_curve?, List.forall_mem_map]
  intro key member
  obtain ⟨keyframe, keyframeMember, given, _⟩ := exists_keyframe_of_key member
  exact each keyframe keyframeMember key.value given

theorem forall_positions_curve? {Holds : Single → Prop}
    (each : ∀ keyframe ∈ block.keyframes, Holds (fraction block.duration keyframe.time)) :
    ∀ position ∈ Curve.positions (block.curve? channel), Holds position := by
  rw [Curve.positions, keysOr0_curve?, List.forall_mem_map]
  intro key member
  obtain ⟨keyframe, keyframeMember, _, same⟩ := exists_keyframe_of_key member
  exact same ▸ each keyframe keyframeMember

end Channels

theorem forall_positions_track {block : Block} {Holds : Single → Prop}
    (each : ∀ keyframe ∈ block.keyframes, Holds (fraction block.duration keyframe.time)) :
    ∀ position ∈ block.track.positions, Holds position := by
  intro position member
  simp only [Track.positions, List.mem_append] at member
  rcases member with ((onTranslation | onRotation) | onScale) | onShapes
  · exact forall_positions_curve? each position onTranslation
  · exact forall_positions_curve? each position onRotation
  · exact forall_positions_curve? each position onScale
  · obtain ⟨change, changeMember, rfl⟩ := List.mem_map.mp onShapes
    obtain ⟨keyframe, keyframeMember, made⟩ := List.mem_filterMap.mp changeMember
    obtain ⟨shape, _, rfl⟩ := Option.map_eq_some_iff.mp made
    exact each keyframe keyframeMember

theorem duration_bounds {block : Block}
    (sound : ∀ keyframe ∈ block.keyframes, keyframe.Sound) :
    0 ≤ block.duration ∧ ∀ keyframe ∈ block.keyframes, keyframe.time ≤ block.duration := by
  obtain ⟨nonnegative, atMost⟩ := block.duration_isLargest.bounds <| by
    rw [List.forall_mem_map]
    exact fun keyframe member => (sound keyframe member).time
  exact ⟨nonnegative, List.forall_mem_map.mp atMost⟩

theorem fraction_inUnit {duration time : Single} (nonnegative : 0 ≤ time)
    (atMost : time ≤ duration) (finite : duration.isFinite = true) :
    InUnit (fraction duration time) := by
  unfold fraction
  split
  next positive => exact Single.div_inUnit nonnegative atMost positive finite
  next => exact Single.inUnit_zero

theorem track_sound {block : Block} (sound : ∀ keyframe ∈ block.keyframes, keyframe.Sound) :
    block.track.Sound where
  duration := (duration_bounds sound).1
  places := forall_values_curve? fun keyframe member => (sound keyframe member).position
  rotations := forall_values_curve? fun keyframe member => (sound keyframe member).rotation
  scales := forall_values_curve? fun keyframe member => (sound keyframe member).scale
  positions finite := forall_positions_track fun keyframe member =>
    fraction_inUnit (sound keyframe member).time ((duration_bounds sound).2 keyframe member) finite

end Block

theorem notes_sound {numbers : Settings} (usable : numbers.Usable) (inHand : Bool)
    (entries : List Entry) : ∀ note ∈ notes numbers inHand entries, note.keyframe.Sound := by
  induction entries with
  | nil => exact fun _ member => nomatch member
  | cons entry rest ih =>
      cases entry with
      | aim => exact ih
      | keyframe text =>
          intro note member
          rcases List.mem_append.mp member with here | later
          · exact note?_sound usable (Option.mem_toList.mp here)
          · exact ih note later

namespace Passage

variable {numbers : Settings}

theorem block_sound (usable : numbers.Usable) (passage : Passage) (limb : Limb) :
    ∀ keyframe ∈ (passage.block numbers limb).keyframes, keyframe.Sound := by
  refine List.forall_mem_map.mpr ?_
  exact notes_sound usable passage.inHand passage.entries

theorem time_bounds (usable : numbers.Usable) (passage : Passage) (limb : Limb) :
    ∀ note ∈ passage.notes numbers,
      0 ≤ note.keyframe.time ∧ note.keyframe.time ≤ (passage.track numbers limb).duration := by
  intro note member
  have keyframeMember : note.keyframe ∈ (passage.block numbers limb).keyframes :=
    List.mem_map_of_mem member
  have sound := block_sound usable passage limb
  exact ⟨(sound _ keyframeMember).time, (Block.duration_bounds sound).2 _ keyframeMember⟩

theorem restrictions_bounds (usable : numbers.Usable) (passage : Passage) (limb : Limb) :
    ∀ entry ∈ passage.restrictions numbers,
      0 ≤ entry.time ∧ entry.time ≤ (passage.track numbers limb).duration := by
  intro entry member
  obtain ⟨note, noteMember, made⟩ := List.mem_filterMap.mp member
  obtain ⟨restrictions, _, rfl⟩ := Option.map_eq_some_iff.mp made
  exact time_bounds usable passage limb note noteMember

end Passage

namespace Sheet

variable {key : ClipKey} {sheet : Sheet}

theorem mem_headed {header : Header} {passages : List Passage} {passage : Passage} :
    passage ∈ headed header passages ↔ passage ∈ passages ∧ passage.header = header := by
  simp [headed]

theorem head?_headed {header : Header} {passages : List Passage} {passage : Passage}
    (one : (headed header passages).length ≤ 1) (member : passage ∈ passages)
    (same : passage.header = header) : (headed header passages).head? = some passage := by
  have inside := mem_headed.mpr ⟨member, same⟩
  match found : headed header passages with
  | [] => simp [found] at inside
  | [only] => simpa [found, eq_comm] using inside
  | _ :: _ :: _ => simp [found] at one

theorem exists_passage_of_track {track : Track} (member : track ∈ (sheet.clip key).tracks) :
    ∃ passage ∈ sheet.passages, ∃ limb, track = passage.track sheet.numbers limb := by
  have fromHead {header : Header} {limb : Limb} (first : track ∈ ((headed header
      sheet.passages).head?.map (Passage.track sheet.numbers limb)).toList) :
      ∃ passage ∈ sheet.passages, ∃ limb, track = passage.track sheet.numbers limb := by
    obtain ⟨passage, found, rfl⟩ := Option.map_eq_some_iff.mp (Option.mem_toList.mp first)
    exact ⟨passage, (mem_headed.mp (List.mem_of_head? found)).1, limb, rfl⟩
  rcases List.mem_append.mp member with single | hand
  · rcases List.mem_append.mp single with body | head
    · exact fromHead body
    · exact fromHead head
  · obtain ⟨index, inRange, rfl⟩ := List.mem_mapIdx.mp hand
    exact ⟨_, (mem_headed.mp (List.getElem_mem inRange)).1, .hand index, rfl⟩

theorem exists_track_of_passage (key : ClipKey) (proper : sheet.WellFormed) {passage : Passage}
    (member : passage ∈ sheet.passages) :
    ∃ limb, passage.track sheet.numbers limb ∈ (sheet.clip key).tracks := by
  cases header : passage.header with
  | body =>
      have first := head?_headed proper.oneBody member header
      refine ⟨.body, List.mem_append_left _ (List.mem_append_left _ ?_)⟩
      exact Option.mem_toList.mpr (Option.map_eq_some_iff.mpr ⟨passage, first, rfl⟩)
  | head =>
      have first := head?_headed proper.oneHead member header
      refine ⟨.head, List.mem_append_left _ (List.mem_append_right _ ?_)⟩
      exact Option.mem_toList.mpr (Option.map_eq_some_iff.mpr ⟨passage, first, rfl⟩)
  | hand =>
      obtain ⟨index, inRange, same⟩ := List.getElem_of_mem (mem_headed.mpr ⟨member, header⟩)
      refine ⟨.hand index, List.mem_append_right _ (List.mem_mapIdx.mpr ⟨index, inRange, ?_⟩)⟩
      rw [same]

theorem clip_sound (proper : sheet.WellFormed) : (sheet.clip key).Sound := by
  have usable : sheet.numbers.Usable := inForce_usable sheet.settings
  have tracks : ∀ track ∈ (sheet.clip key).tracks, track.Sound := by
    intro track member
    obtain ⟨passage, _, limb, rfl⟩ := exists_passage_of_track member
    exact Block.track_sound (passage.block_sound usable limb)
  obtain ⟨duration, atMost⟩ := (longest_isLargest (sheet.clip key).tracks).bounds <|
    List.forall_mem_map.mpr fun track member => (tracks track member).duration
  rw [List.forall_mem_map] at atMost
  refine ⟨duration, fun entry member => ?_, fun track member =>
    ⟨tracks track member, atMost track member⟩⟩
  -- A restriction stems from a keyframe, so its time is no later than the end of that track.
  obtain ⟨passage, passageMember, given⟩ := List.mem_flatMap.mp (List.mem_mergeSort.mp member)
  obtain ⟨limb, onTrack⟩ := exists_track_of_passage key proper passageMember
  obtain ⟨nonnegative, within⟩ := passage.restrictions_bounds usable limb entry given
  exact ⟨nonnegative, Single.le_trans within (atMost _ onTrack)⟩

end Sheet

/-- The clip of a file is sound; it is usable exactly when its duration and all places
on its tracks are finite. -/
theorem read_clip_usable_unless_out_of_range {key : ClipKey} {content : Bytes} {clip : Clip}
    (read : readClip key content = .ok clip) :
    clip.Sound ∧ (clip.Usable ↔ clip.duration.isFinite = true ∧
      ∀ track ∈ clip.tracks, ∀ place ∈ Curve.values track.translation,
        place.isFinite = true) := by
  obtain ⟨sheet, _, proper, rfl⟩ := readClip_eq_ok_iff.mp read
  have sound : (sheet.clip key).Sound := Sheet.clip_sound proper
  exact ⟨sound, sound.usable_iff⟩

/-- A file whose numbers are converted within range. -/
theorem read_clip_usable_of_short_fall :
    let content := "1\nfps 30\nspeed 2\nscale 10\nHAND\n0s 1px 2px point\n45 45deg\n"
      |>.toUTF8.data.toList
    ∃ clip, readClip ⟨"fall", "guard"⟩ content = .ok clip ∧ clip.Sound ∧ clip.Usable := by
  intro content
  have computed : ((readClip ⟨"fall", "guard"⟩ content).toOption.any fun clip =>
      clip.duration.isFinite = true ∧
        ∀ track ∈ clip.tracks, ∀ place ∈ Curve.values track.translation,
          place.isFinite = true) = true := by decide +kernel
  obtain ⟨clip, read, facts⟩ := (Option.any_eq_true _ _).mp computed
  have readable := toOption_eq_some_iff.mp read
  obtain ⟨sound, usable⟩ := read_clip_usable_unless_out_of_range readable
  exact ⟨clip, readable, sound, usable.mpr (of_decide_eq_true facts)⟩

/-- A time and a place go out of range, and a position becomes a NaN. -/
theorem clip_out_of_range_not_usable :
    let content := ("1\nspeed .1\nscale 10\nBODY\n" ++
      "300000000000000000000000000000000000000s " ++
      "300000000000000000000000000000000000000px 0px\n").toUTF8.data.toList
    ∃ clip, readClip ⟨"fall", "guard"⟩ content = .ok clip ∧
      clip.duration = .infinite false ∧
      (clip.body.toList.flatMap fun track => Curve.values track.translation) =
        [⟨.infinite false, 0⟩] ∧
      (clip.body.toList.flatMap fun track => Curve.positions track.translation) =
        [Single.quietNaN] ∧
      ¬ clip.Usable := by
  intro content
  have computed : ((readClip ⟨"fall", "guard"⟩ content).toOption.any fun clip =>
      clip.duration = .infinite false ∧
      (clip.body.toList.flatMap fun track => Curve.values track.translation) =
        [⟨.infinite false, 0⟩] ∧
      (clip.body.toList.flatMap fun track => Curve.positions track.translation) =
        [Single.quietNaN]) = true := by decide +kernel
  obtain ⟨clip, read, facts⟩ := (Option.any_eq_true _ _).mp computed
  obtain ⟨duration, places, positions⟩ := of_decide_eq_true facts
  refine ⟨clip, toOption_eq_some_iff.mp read, duration, places, positions, fun usable => ?_⟩
  have finite := usable.duration
  rw [duration] at finite
  cases finite

end ClipFile

end LimbAnimation
