import LimbAnimation.Proofs.ClipFile.KeyframeLines
import LimbAnimation.Proofs.ClipFile.Keyframes

/-!
# The conversion of keyframes

Times in frames are converted by the number of frames in a second, and positions by the
scale; nothing else is.  So where a file is read with another scale, only positions differ,
and where no time is given in frames, their number in a second does not matter.
-/

namespace LimbAnimation

/-- The curve with its values changed, each at its place. -/
def Curve.mapValues {α β : Type} (change : α → β) (curve : Curve α) : Curve β :=
  ⟨curve.keys.map fun key => ⟨change key.value, key.position⟩⟩

@[simp] theorem Curve.mapValues_id {α : Type} (curve : Curve α) : curve.mapValues id = curve := by
  simp [mapValues]

/-- The track with the values of its translation keys changed. -/
def Track.moved (move : Vec → Vec) (track : Track) : Track :=
  { track with translation := track.translation.map (Curve.mapValues move) }

@[simp] theorem Track.moved_id (track : Track) : track.moved id = track := by
  obtain ⟨limb, duration, followsAim, translation, rotation, scale, shapes⟩ := track
  cases translation <;> simp [moved]

/-- The clip with the values of all translation keys changed. -/
def Clip.moved (move : Vec → Vec) (clip : Clip) : Clip :=
  { clip with
    body := clip.body.map (Track.moved move)
    head := clip.head.map (Track.moved move)
    hands := clip.hands.map (Track.moved move) }

@[simp] theorem Clip.moved_id (clip : Clip) : clip.moved id = clip := by
  obtain ⟨key, body, head, hands, restrictions, duration, smooth, relativeHands⟩ := clip
  have unmoved : Track.moved id = id := funext Track.moved_id
  simp [moved, unmoved]

namespace ClipFile

/-- The keyframe with another position, if it gives one. -/
def Keyframe.moved (move : Vec → Vec) (keyframe : Keyframe) : Keyframe :=
  { keyframe with position := keyframe.position.map move }

def Note.moved (move : Vec → Vec) (note : Note) : Note :=
  { note with keyframe := note.keyframe.moved move }

@[simp] theorem Note.moved_id (note : Note) : note.moved id = note := by
  simp [moved, Keyframe.moved]

namespace Block

def moved (move : Vec → Vec) (block : Block) : Block :=
  { block with keyframes := block.keyframes.map (Keyframe.moved move) }

variable (move : Vec → Vec) (block : Block)

theorem duration_moved : (block.moved move).duration = block.duration := by
  rw [duration, duration, moved, List.foldl_map]
  rfl

theorem keys_moved {α : Type} {channel : Keyframe → Option α}
    (kept : ∀ keyframe, channel (keyframe.moved move) = channel keyframe) :
    (block.moved move).keys channel = block.keys channel := by
  simp only [keys, duration_moved]
  rw [moved, List.filterMap_map]
  refine List.filterMap_congr fun keyframe _ => ?_
  rw [Function.comp_apply, kept]
  rfl

theorem curve?_moved {α : Type} {channel : Keyframe → Option α}
    (kept : ∀ keyframe, channel (keyframe.moved move) = channel keyframe) :
    (block.moved move).curve? channel = block.curve? channel := by
  rw [curve?, keys_moved move block kept, curve?]

theorem keys_position_moved :
    (block.moved move).keys Keyframe.position =
      (block.keys Keyframe.position).map fun key => ⟨move key.value, key.position⟩ := by
  simp only [keys, duration_moved]
  rw [moved, List.filterMap_map, List.map_filterMap]
  refine List.filterMap_congr fun keyframe _ => ?_
  rw [Function.comp_apply, Keyframe.moved]
  cases keyframe.position <;> rfl

theorem curve?_position_moved :
    (block.moved move).curve? Keyframe.position =
      (block.curve? Keyframe.position).map (Curve.mapValues move) := by
  rw [curve?, keys_position_moved, curve?]
  cases block.keys Keyframe.position <;> rfl

theorem shapes_moved : (block.moved move).shapes = block.shapes := by
  simp only [shapes, duration_moved]
  rw [moved, List.filterMap_map]
  rfl

theorem track_moved : (block.moved move).track = block.track.moved move := by
  have rotation : (block.moved move).curve? Keyframe.rotation = block.curve? Keyframe.rotation :=
    curve?_moved move block fun _ => rfl
  have scale : (block.moved move).curve? Keyframe.scale = block.curve? Keyframe.scale :=
    curve?_moved move block fun _ => rfl
  rw [track, duration_moved, curve?_position_moved, rotation, scale, shapes_moved]
  rfl

end Block

section Notes

variable {settings other : Settings} {inHand : Bool} {text : List Char}

/-- The tokens of a line do not depend on the scale. -/
theorem Draft.ofLine_rescaled (settings : Settings) (factor : Single) (inHand : Bool)
    (text : List Char) :
    ofLine { settings with scale := factor } inHand text = ofLine settings inHand text := rfl

theorem Draft.keyframe_rescaled (unscaled : settings.scale = 1) (factor : Single) {draft : Draft}
    (finite : ∀ offset ∈ draft.offsets, offset.isFinite = true) :
    draft.keyframe { settings with scale := factor } =
      (draft.keyframe settings).map (Keyframe.moved (Vec.scaledBy · factor)) := by
  obtain ⟨time, offsets, rotation, scale, shape, restrictions⟩ := draft
  cases time with
  | none => rfl
  | some time =>
      match offsets with
      | [] => rfl
      | [_] => rfl
      | _ :: _ :: _ :: _ => rfl
      | [x, y] =>
          have xSame := Single.mul_one (finite x (by simp))
          have ySame := Single.mul_one (finite y (by simp))
          simp [Draft.keyframe, position, unscaled, Keyframe.moved, Vec.scaledBy, xSame, ySame,
            Except.map]

/-- A factor takes the place of the scale one, which is a factor without effect. -/
theorem note?_rescaled (usable : settings.Usable) (unscaled : settings.scale = 1)
    (factor : Single) (inHand : Bool) (text : List Char) :
    note? { settings with scale := factor } inHand text =
      (note? settings inHand text).map (Note.moved (Vec.scaledBy · factor)) := by
  rw [note?, note?, Draft.ofLine_rescaled]
  cases read : Draft.ofLine settings inHand text with
  | error fault => rfl
  | ok draft =>
      dsimp only [ok_bind]
      rw [Draft.keyframe_rescaled unscaled factor (Draft.ofLine_sound usable read).offsets]
      cases draft.keyframe settings <;> rfl

/-- Whether a token is written like a time in seconds. -/
def isSeconds (token : List Char) : Bool := (measured? "s" token).isSome

/-- Whether a keyframe line gives its time in seconds. -/
def timedInSeconds (text : List Char) : Bool := (cut? text).any fun tokens => tokens.any isSeconds

theorem ofSpelling_of_isSeconds {token : List Char} (timed : isSeconds token = true) :
    ∃ number, Token.ofSpelling token = .seconds number := by
  obtain ⟨number, found⟩ := Option.isSome_iff_exists.mp timed
  obtain ⟨rfl, begins⟩ := measured?_eq_some_iff.mp found
  exact ⟨number, Token.ofSpelling_seconds begins⟩

/-- Only times depend on the settings. -/
theorem Gives.of_timeless {token : List Char} {part : Part}
    (gives : Gives settings inHand token part) (timeless : part.time? = none) :
    Gives other inHand token part := by
  cases gives with
  | restrictions known => exact .restrictions known
  | scale two xRead yRead => exact .scale two xRead yRead
  | rotation read => exact .rotation read
  | offset read => exact .offset read
  | seconds read => cases timeless
  | frames read low high => cases timeless
  | shape known hand => exact .shape known hand

/-- A time in seconds depends on the speed only. -/
theorem Gives.of_isSeconds {token : List Char} {part : Part}
    (gives : Gives settings inHand token part) (timed : isSeconds token = true)
    (sameSpeed : other.speed = settings.speed) :
    part.time? ≠ none ∧ Gives other inHand token part := by
  obtain ⟨number, kind⟩ := ofSpelling_of_isSeconds timed
  cases gives with
  | restrictions known => cases kind.symm.trans (Token.ofSpelling_restrictions _)
  | scale two xRead yRead => cases kind.symm.trans (Token.ofSpelling_scale _)
  | rotation read =>
      cases kind.symm.trans (Token.ofSpelling_rotation (beginsNumber_of_readSingle? read))
  | offset read =>
      cases kind.symm.trans (Token.ofSpelling_offset (beginsNumber_of_readSingle? read))
  | @seconds number seconds read =>
      have gives : Gives other inHand (number ++ "s".toList) (.time (seconds / other.speed)) :=
        .seconds read
      rw [sameSpeed] at gives
      exact ⟨nofun, gives⟩
  | frames read low high => cases kind.symm.trans (Token.ofSpelling_frames read)
  | shape known hand => cases kind.symm.trans (Token.ofSpelling_word known)

section Lines

variable {tokens : List (List Char)} {parts : List Part}
  (gives : List.Forall₂ (Gives settings inHand) tokens parts)
include gives

theorem gives_of_timeless (timeless : parts.filterMap Part.time? = []) :
    List.Forall₂ (Gives other inHand) tokens parts := by
  induction gives with
  | nil => exact .nil
  | cons here _ ih =>
      obtain ⟨first, later⟩ := List.forall_mem_cons.mp (List.filterMap_eq_nil_iff.mp timeless)
      exact .cons (here.of_timeless first) (ih (List.filterMap_eq_nil_iff.mpr later))

theorem times_ne_nil (timed : tokens.any isSeconds = true) : parts.filterMap Part.time? ≠ [] := by
  intro timeless
  induction gives with
  | nil => cases timed
  | cons here _ ih =>
      obtain ⟨first, later⟩ := List.forall_mem_cons.mp (List.filterMap_eq_nil_iff.mp timeless)
      rcases Bool.or_eq_true_iff.mp timed with seconds | others
      · exact (here.of_isSeconds seconds rfl).1 first
      · exact ih others (List.filterMap_eq_nil_iff.mpr later)

/-- A line has one time at most, so next to one in seconds there is none in frames. -/
theorem gives_of_timedInSeconds (oneTime : (parts.filterMap Part.time?).length ≤ 1)
    (timed : tokens.any isSeconds = true) (sameSpeed : other.speed = settings.speed) :
    List.Forall₂ (Gives other inHand) tokens parts := by
  induction gives with
  | nil => exact .nil
  | @cons token part tokens parts here rest ih =>
      cases given : part.time? with
      | some time =>
          rw [List.filterMap_cons_some given, List.length_cons] at oneTime
          have noneLater : parts.filterMap Part.time? = [] :=
            List.eq_nil_of_length_eq_zero (by omega)
          cases seconds : isSeconds token with
          | true =>
              exact .cons (here.of_isSeconds seconds sameSpeed).2 (gives_of_timeless rest noneLater)
          | false =>
              rw [List.any_cons, seconds, Bool.false_or] at timed
              exact absurd noneLater (times_ne_nil rest timed)
      | none =>
          rw [List.filterMap_cons_none given] at oneTime
          have others : tokens.any isSeconds = true := by
            rcases Bool.or_eq_true_iff.mp timed with seconds | others
            · exact absurd given (here.of_isSeconds seconds rfl).1
            · exact others
          exact .cons (here.of_timeless given) (ih oneTime others)

end Lines

/-- Where the time is given in seconds, the number of frames in a second does not matter. -/
theorem note?_of_timedInSeconds {note : Note} (timed : timedInSeconds text = true) (fps : Nat)
    (noted : note? settings inHand text = some note) :
    note? { settings with fps := fps } inHand text = some note := by
  obtain ⟨draft, read, complete⟩ := bind_eq_ok_iff.mp (toOption_eq_some_iff.mp noted)
  obtain ⟨tokens, parts, balanced, cuts, gives, compatible, same⟩ :=
    Draft.ofLine_eq_ok_iff.mp read
  rw [timedInSeconds, cut?_eq_some_iff.mpr cuts] at timed
  have otherGives : List.Forall₂ (Gives { settings with fps := fps } inHand) tokens parts :=
    gives_of_timedInSeconds gives compatible.time timed rfl
  have otherRead := Draft.ofLine_eq_ok_iff.mpr
    ⟨tokens, parts, balanced, cuts, otherGives, compatible, same⟩
  exact toOption_eq_some_iff.mpr (bind_eq_ok_iff.mpr ⟨draft, otherRead, complete⟩)

end Notes

namespace Sheet

/-- Another sheet with the same blocks, in which the positions of the keyframes are read as
changed ones. -/
structure MovedTo (move : Vec → Vec) (sheet other : Sheet) : Prop where
  passages : other.passages = sheet.passages
  switches : ∀ switch, .switch switch ∈ other.settings ↔ .switch switch ∈ sheet.settings
  notes : ∀ passage ∈ sheet.passages, ∀ text, .keyframe text ∈ passage.entries →
    note? other.numbers passage.inHand text =
      (note? sheet.numbers passage.inHand text).map (Note.moved move)

end Sheet

theorem notes_moved {move : Vec → Vec} {numbers other : Settings} {inHand : Bool}
    {entries : List Entry}
    (each : ∀ text, .keyframe text ∈ entries →
      note? other inHand text = (note? numbers inHand text).map (Note.moved move)) :
    notes other inHand entries = (notes numbers inHand entries).map (Note.moved move) := by
  induction entries with
  | nil => rfl
  | cons entry rest ih =>
      have later := ih fun text member => each text (List.mem_cons_of_mem _ member)
      cases entry with
      | aim => exact later
      | keyframe text =>
          have here := each text List.mem_cons_self
          rw [notes, notes, here, later, List.map_append, Option.toList_map]

namespace Sheet.MovedTo

variable {move : Vec → Vec} {sheet other : Sheet} (moved : sheet.MovedTo move other)
include moved

theorem passage_notes {passage : Passage} (member : passage ∈ sheet.passages) :
    passage.notes other.numbers = (passage.notes sheet.numbers).map (Note.moved move) :=
  notes_moved (moved.notes passage member)

theorem track {passage : Passage} (member : passage ∈ sheet.passages) (limb : Limb) :
    passage.track other.numbers limb = (passage.track sheet.numbers limb).moved move := by
  have block : passage.block other.numbers limb =
      (passage.block sheet.numbers limb).moved move := by
    rw [Passage.block, moved.passage_notes member, List.map_map]
    simp only [Block.moved, Passage.block, List.map_map]
    rfl
  rw [Passage.track, block, Block.track_moved, Passage.track]

theorem restrictions {passage : Passage} (member : passage ∈ sheet.passages) :
    passage.restrictions other.numbers = passage.restrictions sheet.numbers := by
  rw [Passage.restrictions, moved.passage_notes member, List.filterMap_map]
  rfl

theorem wellFormed (proper : sheet.WellFormed)
    (readable : ∀ setting ∈ other.settings, setting.Readable) : other.WellFormed where
  settings := readable
  oneBody := moved.passages ▸ proper.oneBody
  oneHead := moved.passages ▸ proper.oneHead
  passages passage member := by
    rw [moved.passages] at member
    intro text inside
    rw [moved.notes passage member text inside, Option.isSome_map]
    exact proper.passages passage member text inside

theorem first (header : Header) (limb : Limb) :
    (headed header other.passages).head?.map (Passage.track other.numbers limb) =
      ((headed header sheet.passages).head?.map (Passage.track sheet.numbers limb)).map
        (Track.moved move) := by
  rw [moved.passages, Option.map_map]
  refine Option.map_congr fun passage found => ?_
  exact moved.track (List.mem_filter.mp (List.mem_of_head? found)).1 limb

theorem hands :
    ((headed .hand other.passages).mapIdx fun index passage =>
      passage.track other.numbers (.hand index)) =
      ((headed .hand sheet.passages).mapIdx fun index passage =>
        passage.track sheet.numbers (.hand index)).map (Track.moved move) := by
  rw [moved.passages]
  refine List.ext_getElem (by simp) fun index inRange _ => ?_
  rw [List.length_mapIdx] at inRange
  rw [List.getElem_mapIdx, List.getElem_map, List.getElem_mapIdx]
  exact moved.track (List.mem_filter.mp (List.getElem_mem inRange)).1 (.hand index)

theorem restrictions_all :
    other.passages.flatMap (Passage.restrictions other.numbers) =
      sheet.passages.flatMap (Passage.restrictions sheet.numbers) := by
  rw [moved.passages]
  exact List.flatMap_congr fun passage member => moved.restrictions member

theorem clip (key : ClipKey) : other.clip key = (sheet.clip key).moved move := by
  have duration : ∀ (body head : Option Track) (hands : List Track),
      Reader.longest ((body.map (Track.moved move)).toList ++
        (head.map (Track.moved move)).toList ++ hands.map (Track.moved move)) =
          Reader.longest (body.toList ++ head.toList ++ hands) := by
    intro body head hands
    rw [Option.toList_map, Option.toList_map, ← List.map_append, ← List.map_append]
    exact List.foldl_map
  simp only [Sheet.clip, moved.first, moved.hands, moved.restrictions_all, moved.switches,
    Clip.moved, duration]

end Sheet.MovedTo

end ClipFile

end LimbAnimation
