import LimbAnimation.Proofs.ClipFile.KeyframeLines
import LimbAnimation.Proofs.ClipFile.Passages
import LimbAnimation.Proofs.Restrictions.Timeline
import LimbAnimation.Proofs.Single.Order
import LimbAnimation.Proofs.Text.PlainDecimal

/-!
# What a sheet describes

The clip of a sheet is described by relations, without regard to how it is computed: which
lines count, which numbers are in force, what a keyframe line notes, where keys and shapes
stand on a track, and which passage becomes which track.
-/

namespace LimbAnimation

open Single (IsLargest)

/-- A curve with the given keys; without keys there is none. -/
def Curve.Bears {α : Type} (curve : Option (Curve α)) (keys : List (Key α)) : Prop :=
  match curve with
  | none => keys = []
  | some curve => keys ≠ [] ∧ curve.keys = keys

/-- On each curve and among the shapes stands what the keyframes give, in their order and
at their places. -/
structure Track.Bears (track : Track) (keyframes : List ClipFile.Keyframe)
    (place : ClipFile.Keyframe → Single) : Prop where
  translation : Curve.Bears track.translation <| keyframes.filterMap fun keyframe =>
    keyframe.position.map fun value => ⟨value, place keyframe⟩
  rotation : Curve.Bears track.rotation <| keyframes.filterMap fun keyframe =>
    keyframe.rotation.map fun value => ⟨value, place keyframe⟩
  scale : Curve.Bears track.scale <| keyframes.filterMap fun keyframe =>
    keyframe.scale.map fun value => ⟨value, place keyframe⟩
  shapes : track.shapes.changes = keyframes.filterMap fun keyframe =>
    keyframe.shape.map fun shape => ⟨place keyframe, shape⟩

namespace ClipFile

section Texts

/-- The text of a line: blanks around it do not count, and in the first line neither do
byte order marks in front. -/
inductive HasText : Bool → List Char → List Char → Prop where
  | later (raw : List Char) : HasText false raw (Text.trim raw)
  | first {raw marks rest : List Char} : Text.trim raw = marks ++ rest →
      (∀ mark ∈ marks, mark = byteOrderMark) → rest.head? ≠ some byteOrderMark →
      HasText true raw (Text.trim rest)

/-- The texts of those lines that are neither blank nor comments. -/
inductive Counts : Bool → List (List Char) → List (List Char) → Prop where
  | nil {isFirst : Bool} : Counts isFirst [] []
  | blank {isFirst : Bool} {raw : List Char} {rest texts : List (List Char)} :
      HasText isFirst raw [] → Counts false rest texts → Counts isFirst (raw :: rest) texts
  | comment {isFirst : Bool} {raw comment : List Char} {rest texts : List (List Char)} :
      HasText isFirst raw ('#' :: comment) → Counts false rest texts →
      Counts isFirst (raw :: rest) texts
  | text {isFirst : Bool} {raw more : List Char} {head : Char}
      {rest texts : List (List Char)} :
      HasText isFirst raw (head :: more) → head ≠ '#' → Counts false rest texts →
      Counts isFirst (raw :: rest) ((head :: more) :: texts)

theorem hasText_lineText (isFirst : Bool) (raw : List Char) :
    HasText isFirst raw (lineText isFirst raw) := by
  cases isFirst with
  | false => exact .later raw
  | true =>
      refine .first List.takeWhile_append_dropWhile.symm ?_ ?_
      · intro mark member
        exact beq_iff_eq.mp (List.all_eq_true.mp List.all_takeWhile mark member)
      · intro marked
        have stops := List.head?_dropWhile_not (· == byteOrderMark) (Text.trim raw)
        rw [marked] at stops
        simp at stops

theorem counts_cons (isFirst : Bool) (raw : List Char) {rest texts : List (List Char)}
    (counts : Counts false rest (texts.filter fun text => !isSkipped text)) :
    Counts isFirst (raw :: rest)
      ((lineText isFirst raw :: texts).filter fun text => !isSkipped text) := by
  have hasText := hasText_lineText isFirst raw
  cases text : lineText isFirst raw with
  | nil =>
      rw [text] at hasText
      exact .blank hasText counts
  | cons head more =>
      rw [text] at hasText
      by_cases comment : head = '#'
      · subst comment
        exact .comment hasText counts
      · have kept : isSkipped (head :: more) = false := beq_false_of_ne comment
        rw [List.filter_cons_of_pos (by rw [kept]; rfl)]
        exact .text hasText comment counts

theorem counts_significant (raws : List (List Char)) : Counts true raws (significant raws) := by
  have later (raws : List (List Char)) :
      Counts false raws ((raws.map (lineText false)).filter fun text => !isSkipped text) := by
    induction raws with
    | nil => exact .nil
    | cons raw rest ih => exact counts_cons false raw ih
  cases raws with
  | nil => exact .nil
  | cons raw rest => exact counts_cons true raw (later rest)

end Texts

section Numbers

/-- A number of frames in a second as it is written: the digits, perhaps after a plus sign,
of a number that is positive and of 32 bits. -/
structure DenotesFps (payload : List Char) (fps : Nat) : Prop where
  written : ∃ digits : List (Fin 10), digits ≠ [] ∧ Text.digitsValue digits = fps ∧
    (payload = Text.digitChars digits ∨ payload = '+' :: Text.digitChars digits)
  positive : 0 < fps
  inRange : fps < 2 ^ (32 : Nat)

/-- A speed: a decimal that is positive. -/
structure DenotesSpeed (payload : List Char) (speed : Single) : Prop where
  written : Text.readSingle? payload = some speed
  positive : 0 < speed

/-- The number that the last directive of a name sets, among those whose payload denotes
one; without such a directive, the standard number. -/
inductive LastSet {α : Type} (name : Directive) (Denotes : List Char → α → Prop)
    (standard : α) : List Setting → α → Prop where
  | directive {before after : List Setting} {payload : List Char} {value : α} :
      Denotes payload value →
      (∀ other, .directive name other ∈ after → ∀ value, ¬ Denotes other value) →
      LastSet name Denotes standard (before ++ .directive name payload :: after) value
  | standard {settings : List Setting} :
      (∀ payload, .directive name payload ∈ settings → ∀ value, ¬ Denotes payload value) →
      LastSet name Denotes standard settings standard

/-- The numbers that settings leave in force. -/
structure LeavesInForce (settings : List Setting) (numbers : Settings) : Prop where
  fps : LastSet .fps DenotesFps 24 settings numbers.fps
  speed : LastSet .speed DenotesSpeed 1 settings numbers.speed
  scale : LastSet .scale (fun payload scale => Text.readSingle? payload = some scale) 1
    settings numbers.scale

theorem fps?_eq_some_iff {payload : List Char} {fps : Nat} :
    Reader.fps? payload = some fps ↔ DenotesFps payload fps := by
  rw [Reader.fps?, Option.filter_eq_some_iff, decide_eq_true_iff, Text.readBounded?_eq_some_iff]
  constructor
  · rintro ⟨⟨written, inRange⟩, positive⟩
    exact ⟨written, positive, inRange⟩
  · rintro ⟨written, positive, inRange⟩
    exact ⟨⟨written, inRange⟩, positive⟩

theorem speed?_eq_some_iff {payload : List Char} {speed : Single} :
    Reader.speed? payload = some speed ↔ DenotesSpeed payload speed := by
  rw [Reader.speed?, Option.filter_eq_some_iff, decide_eq_true_iff]
  exact ⟨fun given => ⟨given.1, given.2⟩, fun given => ⟨given.written, given.positive⟩⟩

theorem value?_eq_some_iff {α : Type} {name : Directive} {read? : List Char → Option α}
    {setting : Setting} {value : α} :
    setting.value? name read? = some value ↔
      ∃ payload, setting = .directive name payload ∧ read? payload = some value := by
  cases setting with
  | directive other payload =>
      by_cases same : other = name
      · subst same
        simp [Setting.value?]
      · simp [Setting.value?, same]
  | switch switch => simp [Setting.value?]

theorem lastSet_lastValue {α : Type} {name : Directive} {read? : List Char → Option α}
    {Denotes : List Char → α → Prop}
    (reads : ∀ {payload value}, read? payload = some value ↔ Denotes payload value)
    (standard : α) (settings : List Setting) :
    LastSet name Denotes standard settings (lastValue settings name read? standard) := by
  have denotesNone {settings : List Setting}
      (none : ∀ setting ∈ settings, setting.value? name read? = none) (payload : List Char)
      (member : .directive name payload ∈ settings) (value : α) : ¬ Denotes payload value := by
    intro denotes
    have unread := none _ member
    rw [value?_eq_some_iff.mpr ⟨payload, rfl, reads.mpr denotes⟩] at unread
    cases unread
  rw [lastValue, List.getLast?_filterMap]
  cases found : settings.reverse.findSome? (Setting.value? name read?) with
  | none =>
      refine .standard (denotesNone fun setting member => ?_)
      exact List.findSome?_eq_none_iff.mp found setting (List.mem_reverse.mpr member)
  | some value =>
      obtain ⟨later, setting, earlier, cut, here, none⟩ := List.findSome?_eq_some_iff.mp found
      obtain ⟨payload, rfl, read⟩ := value?_eq_some_iff.mp here
      have parted : settings =
          earlier.reverse ++ .directive name payload :: later.reverse := by
        rw [← List.reverse_reverse settings, cut]
        simp
      rw [parted]
      refine .directive (reads.mp read) (denotesNone fun setting member => ?_)
      exact none setting (List.mem_reverse.mp member)

theorem leavesInForce_numbers (sheet : Sheet) : LeavesInForce sheet.settings sheet.numbers where
  fps := lastSet_lastValue fps?_eq_some_iff 24 sheet.settings
  speed := lastSet_lastValue speed?_eq_some_iff 1 sheet.settings
  scale := lastSet_lastValue Iff.rfl 1 sheet.settings

end Numbers

section Notes

/-- What a keyframe line notes: its tokens give the parts of a keyframe and perhaps one that
restricts. -/
inductive Notes (numbers : Settings) (inHand : Bool) (text : List Char) : Note → Prop where
  | parts {tokens : List (List Char)} {parts : List Part} {time : Single} :
      Balanced text → Cuts text tokens →
      List.Forall₂ (Gives numbers inHand) tokens parts → Complete parts time →
      Notes numbers inHand text
        ⟨.ofParts numbers parts time, (parts.filterMap Part.restrictions?).head?⟩

theorem note?_eq_some_iff {numbers : Settings} {inHand : Bool} {text : List Char} {note : Note} :
    note? numbers inHand text = some note ↔ Notes numbers inHand text note := by
  rw [note?, toOption_eq_some_iff, bind_eq_ok_iff]
  constructor
  · intro given
    obtain ⟨draft, read, later⟩ := given
    obtain ⟨keyframe, made, done⟩ := bind_eq_ok_iff.mp later
    obtain ⟨tokens, parts, balanced, cuts, gives, compatible, rfl⟩ :=
      Draft.ofLine_eq_ok_iff.mp read
    obtain ⟨time, complete, rfl⟩ := (Draft.keyframe_ofParts compatible).mp made
    cases done
    exact .parts balanced cuts gives complete
  · intro given
    cases given with
    | @parts tokens parts time balanced cuts gives complete =>
        have compatible := complete.compatible
        have read := Draft.ofLine_eq_ok_iff.mpr
          ⟨tokens, parts, balanced, cuts, gives, compatible, rfl⟩
        have made : (Draft.ofParts parts).keyframe numbers = .ok (.ofParts numbers parts time) :=
          (Draft.keyframe_ofParts compatible).mpr ⟨time, complete, rfl⟩
        exact ⟨_, read, bind_eq_ok_iff.mpr ⟨_, made, rfl⟩⟩

end Notes

section Tracks

/-- The place of a time within a duration: the part of the duration that has passed; the
start when the duration is zero. -/
structure Placed (duration time place : Single) : Prop where
  passed : 0 < duration → place = time / duration
  start : ¬ 0 < duration → place = 0

/-- The place of a keyframe within the duration of its block. -/
def Block.position (block : Block) (keyframe : Keyframe) : Single :=
  fraction block.duration keyframe.time

theorem Block.duration_isLargest (block : Block) :
    IsLargest 0 (block.keyframes.map Keyframe.time) block.duration := by
  have folded : block.duration = (block.keyframes.map Keyframe.time).foldl Single.larger 0 :=
    List.foldl_map.symm
  rw [folded]
  exact Single.isLargest_foldl_larger Single.zero_isNaN _

theorem Block.placed_position (block : Block) (keyframe : Keyframe) :
    Placed block.duration keyframe.time (block.position keyframe) :=
  ⟨fun positive => if_pos positive, fun none => if_neg none⟩

theorem Block.curve?_bears {α : Type} (block : Block) (channel : Keyframe → Option α) :
    Curve.Bears (block.curve? channel) (block.keys channel) := by
  unfold curve?
  split
  next none => exact none
  next nonempty => exact ⟨nonempty, rfl⟩

/-- Keys and shapes stand on the track of a block where their keyframes have their place. -/
theorem Block.track_bears (block : Block) : block.track.Bears block.keyframes block.position where
  translation := block.curve?_bears Keyframe.position
  rotation := block.curve?_bears Keyframe.rotation
  scale := block.curve?_bears Keyframe.scale
  shapes := rfl

def Entry.text? : Entry → Option (List Char)
  | aim => none
  | keyframe text => some text

/-- What the keyframe lines of a passage note, one after the other. -/
def Passage.Noted (numbers : Settings) (passage : Passage) (notes : List Note) : Prop :=
  List.Forall₂ (Notes numbers passage.inHand) (passage.entries.filterMap Entry.text?) notes

/-- The track that a passage describes: it lasts until the latest keyframe, and has what the
keyframes give at the places of their times. -/
structure Passage.Describes (numbers : Settings) (limb : Limb) (passage : Passage)
    (track : Track) : Prop where
  limb : track.limb = limb
  followsAim : track.followsAim = true ↔ .aim ∈ passage.entries
  keyframes : ∃ notes place, passage.Noted numbers notes ∧
    IsLargest 0 (notes.map fun note => note.keyframe.time) track.duration ∧
    (∀ keyframe, Placed track.duration keyframe.time (place keyframe)) ∧
    track.Bears (notes.map Note.keyframe) place

theorem notes_noted {numbers : Settings} {inHand : Bool} {entries : List Entry}
    (noted : AllNoted numbers inHand entries) :
    List.Forall₂ (Notes numbers inHand) (entries.filterMap Entry.text?)
      (notes numbers inHand entries) := by
  induction entries with
  | nil => exact .nil
  | cons entry rest ih =>
      obtain ⟨here, later⟩ := allNoted_cons.mp noted
      cases entry with
      | aim => exact ih later
      | keyframe text =>
          obtain ⟨note, found⟩ := Option.isSome_iff_exists.mp (here text List.mem_cons_self)
          rw [notes, found]
          exact .cons (note?_eq_some_iff.mp found) (ih later)

theorem Passage.track_describes {numbers : Settings} {passage : Passage}
    (readable : passage.Readable numbers) (limb : Limb) :
    passage.Describes numbers limb (passage.track numbers limb) where
  limb := rfl
  followsAim := decide_eq_true_iff
  keyframes := by
    let block := passage.block numbers limb
    have largest := block.duration_isLargest
    simp only [block, Passage.block, List.map_map] at largest
    exact ⟨passage.notes numbers, block.position, notes_noted readable, largest,
      block.placed_position, block.track_bears⟩

end Tracks

section Clips

/-- A sheet in which every line before the first header and every keyframe line can be read,
with one block for the body and one for the head at most. -/
structure Sheet.Grammatical (sheet : Sheet) : Prop where
  fps : ∀ payload, .directive .fps payload ∈ sheet.settings → ∃ fps, DenotesFps payload fps
  scale : ∀ payload, .directive .scale payload ∈ sheet.settings →
    ∃ scale, Text.readSingle? payload = some scale
  oneBody : (headed .body sheet.passages).length ≤ 1
  oneHead : (headed .head sheet.passages).length ≤ 1
  keyframes : ∀ passage ∈ sheet.passages, ∀ text, .keyframe text ∈ passage.entries →
    ∃ note, Notes sheet.numbers passage.inHand text note

/-- The clip that a sheet describes.  Each passage becomes the track of its limb, and the
hands are counted in the order of their passages. -/
structure Sheet.Describes (key : ClipKey) (sheet : Sheet) (clip : Clip) : Prop where
  key : clip.key = key
  body : List.Forall₂ (Passage.Describes sheet.numbers .body) (headed .body sheet.passages)
    clip.body.toList
  head : List.Forall₂ (Passage.Describes sheet.numbers .head) (headed .head sheet.passages)
    clip.head.toList
  hands : List.Forall₂
    (fun (passage, index) => Passage.Describes sheet.numbers (.hand index) passage)
    (headed .hand sheet.passages).zipIdx clip.hands
  restrictions : ∃ notes, List.Forall₂ (Passage.Noted sheet.numbers) sheet.passages notes ∧
    clip.restrictions.Sorts (notes.flatten.filterMap Note.entry?)
  duration : IsLargest 0 (clip.tracks.map Track.duration) clip.duration
  smooth : clip.smooth = true ↔ .switch .smooth ∈ sheet.settings
  relativeHands : clip.relativeHands = true ↔ .switch .relative ∈ sheet.settings

theorem Sheet.wellFormed_iff_grammatical {sheet : Sheet} :
    sheet.WellFormed ↔ sheet.Grammatical := by
  have noted {numbers : Settings} {inHand : Bool} {text : List Char} :
      (note? numbers inHand text).isSome ↔ ∃ note, Notes numbers inHand text note := by
    simp only [Option.isSome_iff_exists, note?_eq_some_iff]
  have settings : (∀ setting ∈ sheet.settings, setting.Readable) ↔
      (∀ payload, .directive .fps payload ∈ sheet.settings → ∃ fps, DenotesFps payload fps) ∧
        ∀ payload, .directive .scale payload ∈ sheet.settings →
          ∃ scale, Text.readSingle? payload = some scale := by
    constructor
    · intro readable
      constructor
      · intro payload member
        obtain ⟨fps, read⟩ := Option.isSome_iff_exists.mp (readable _ member)
        exact ⟨fps, fps?_eq_some_iff.mp read⟩
      · exact fun payload member => Option.isSome_iff_exists.mp (readable _ member)
    · rintro ⟨fps, scale⟩ setting member
      match setting, member with
      | .directive .fps payload, member =>
          obtain ⟨number, denotes⟩ := fps payload member
          exact Option.isSome_iff_exists.mpr ⟨number, fps?_eq_some_iff.mpr denotes⟩
      | .directive .speed _, _ => trivial
      | .directive .scale payload, member =>
          exact Option.isSome_iff_exists.mpr (scale payload member)
      | .switch _, _ => trivial
  constructor
  · rintro ⟨readable, oneBody, oneHead, passages⟩
    obtain ⟨fps, scale⟩ := settings.mp readable
    exact ⟨fps, scale, oneBody, oneHead, fun passage member text entry =>
      noted.mp (passages passage member text entry)⟩
  · rintro ⟨fps, scale, oneBody, oneHead, keyframes⟩
    exact ⟨settings.mpr ⟨fps, scale⟩, oneBody, oneHead, fun passage member text entry =>
      noted.mpr (keyframes passage member text entry)⟩

theorem longest_isLargest (tracks : List Track) :
    IsLargest 0 (tracks.map Track.duration) (Reader.longest tracks) := by
  have folded : Reader.longest tracks = (tracks.map Track.duration).foldl Single.larger 0 :=
    List.foldl_map.symm
  rw [folded]
  exact Single.isLargest_foldl_larger Single.zero_isNaN _

theorem Sheet.clip_describes (key : ClipKey) {sheet : Sheet} (proper : sheet.WellFormed) :
    sheet.Describes key (sheet.clip key) := by
  have each {header : Header} {passage : Passage} (member : passage ∈ headed header sheet.passages)
      (limb : Limb) : passage.Describes sheet.numbers limb (passage.track sheet.numbers limb) :=
    passage.track_describes (proper.passages passage (List.mem_of_mem_filter member)) limb
  have single {header : Header} (limb : Limb) (one : (headed header sheet.passages).length ≤ 1) :
      List.Forall₂ (Passage.Describes sheet.numbers limb) (headed header sheet.passages)
        ((headed header sheet.passages).head?.map (Passage.track sheet.numbers limb)).toList := by
    match found : headed header sheet.passages with
    | [] => exact .nil
    | [passage] => exact .cons (each (found ▸ List.mem_singleton_self passage) limb) .nil
    | _ :: _ :: _ => simp [found] at one
  constructor
  case key => rfl
  case body => exact single .body proper.oneBody
  case head => exact single .head proper.oneHead
  case hands =>
      show List.Forall₂ _ _ (List.mapIdx _ _)
      rw [List.mapIdx_eq_zipIdx_map, List.forall₂_map_right_iff, List.forall₂_same]
      rintro ⟨passage, index⟩ member
      exact each (List.fst_mem_of_mem_zipIdx member) (.hand index)
  case restrictions =>
      refine ⟨sheet.passages.map (Passage.notes sheet.numbers), ?_, ?_⟩
      · rw [List.forall₂_map_right_iff, List.forall₂_same]
        exact fun passage member => notes_noted (proper.passages passage member)
      · rw [← List.flatMap_def, List.filterMap_flatMap]
        exact RestrictionTimeline.sorted_sorts ⟨_⟩
  case duration => exact longest_isLargest (sheet.clip key).tracks
  case smooth => exact decide_eq_true_iff
  case relativeHands => exact decide_eq_true_iff

end Clips

end ClipFile

end LimbAnimation
