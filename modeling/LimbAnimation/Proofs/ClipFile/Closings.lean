import LimbAnimation.Proofs.ClipFile.Usable

/-!
# Closing blocks

A block is closed by the next header or by the end of the file.  The blocks that close while
a file is read are, in another order, those of which the tracks of its clip are made, and
their closings leave all notices about keys and blocks.
-/

namespace LimbAnimation

/-- Whether a notice is one of those that the closing of a block leaves. -/
def Notice.isAboutBlock : Notice → Bool
  | .keySetBack .. | .blockClosed .. => true
  | _ => false

namespace ClipFile

namespace Reader

/-- The block that closes when a line is entered. -/
def closedBy (reader : Reader) : Line → Option Block
  | .header _ => reader.block
  | _ => none

def closing (reader : Reader) (raw : List Char) : Option Block :=
  let text := lineText (reader.lineCount == 0) raw
  if isSkipped text ∨ !reader.versionSeen then none else reader.closedBy (.ofText text)

/-- The blocks, one after the other, that close while some lines and then the end of the
file are read. -/
def closings (reader : Reader) : List Bytes → List Block
  | [] => reader.block.toList
  | line :: rest =>
    ((decode? line).bind reader.closing).toList ++
      match reader.readLine line with
      | .ok reader => reader.closings rest
      | .error _ => []

/-- What holds all the time while a file is read: by its settings keyframes can be converted,
those of the open block are sound, and the body or the head has no track yet when its block
is open. -/
structure Proper (reader : Reader) : Prop where
  settings : reader.settings.Usable
  sound : ∀ block ∈ reader.block, ∀ keyframe ∈ block.keyframes, keyframe.Sound
  noBody : ∀ block ∈ reader.block, block.limb = .body → reader.body = none
  noHead : ∀ block ∈ reader.block, block.limb = .head → reader.head = none

theorem proper_start (key : ClipKey) : (start key).Proper where
  settings := Settings.usable_standard
  sound _ inside := nomatch inside
  noBody _ inside := nomatch inside
  noHead _ inside := nomatch inside

/-- What becomes of a reader when it goes on and a block may close by that. -/
structure Advances (reader : Reader) (closed : Option Block) (next : Reader) : Prop where
  key : next.key = reader.key
  proper : next.Proper
  tracks : next.clip.tracks.Perm (reader.clip.tracks ++ closed.toList.map Block.track)

/-- Only closing blocks makes tracks. -/
theorem advances_of_same {reader next : Reader} (key : next.key = reader.key)
    (proper : next.Proper) (tracks : next.clip.tracks = reader.clip.tracks) :
    Advances reader none next := by
  refine ⟨key, proper, ?_⟩
  rw [tracks, Option.toList_none, List.map_nil, List.append_nil]

theorem Advances.placed {reader next : Reader} {closed : Option Block}
    (advances : Advances reader closed next) (count : Nat) (seen : Bool) :
    Advances reader closed (next.placed count seen) := by
  obtain ⟨key, ⟨settings, sound, noBody, noHead⟩, tracks⟩ := advances
  exact ⟨key, ⟨settings, sound, noBody, noHead⟩, tracks⟩

/-- The track of the open block takes its place among the others. -/
theorem tracks_closed {reader : Reader} (proper : reader.Proper) :
    reader.closed.clip.tracks.Perm
      (reader.clip.tracks ++ reader.block.toList.map Block.track) := by
  cases inside : reader.block with
  | none => simp [closed_of_outside inside]
  | some block =>
      have tracks : reader.clip.tracks =
          reader.body.toList ++ (reader.head.toList ++ reader.hands) := List.append_assoc ..
      rw [tracks, Option.toList_some, List.map_singleton]
      cases limb : block.limb with
      | body =>
          have placed : reader.closed.clip.tracks =
              [block.track] ++ (reader.head.toList ++ reader.hands) := by
            simp [closed, inside, limb, clip, Clip.tracks]
          rw [placed, proper.noBody block inside limb, Option.toList_none, List.nil_append]
          exact List.perm_append_comm
      | head =>
          have placed : reader.closed.clip.tracks =
              reader.body.toList ++ ([block.track] ++ reader.hands) := by
            simp [closed, inside, limb, clip, Clip.tracks]
          rw [placed, proper.noHead block inside limb, Option.toList_none, List.nil_append,
            List.append_assoc]
          exact List.Perm.append_left _ List.perm_append_comm
      | hand index =>
          have placed : reader.closed.clip.tracks =
              reader.body.toList ++ (reader.head.toList ++ reader.hands) ++ [block.track] := by
            simp [closed, inside, limb, clip, Clip.tracks]
          rw [placed]

theorem closed_key (reader : Reader) : reader.closed.key = reader.key := by
  unfold closed
  split
  next => rfl
  next block _ => cases block.limb <;> rfl

/-- A new block begins behind the one that a header has closed. -/
theorem opened_advances {reader next : Reader} {header : Header} (proper : reader.Proper)
    (opened : reader.opened header = .ok next) : Advances reader reader.block next := by
  obtain ⟨free, rfl⟩ := opened_eq_ok_iff.mp opened
  refine ⟨closed_key reader, ?_, tracks_closed proper⟩
  constructor
  case settings => exact (closed_settings reader).symm ▸ proper.settings
  case sound =>
      rintro _ ⟨⟩ keyframe member
      cases member
  case noBody =>
      rintro _ ⟨⟩ limb
      cases header with
      | body => exact free.1 rfl
      | head => cases limb
      | hand => cases limb
  case noHead =>
      rintro _ ⟨⟩ limb
      cases header with
      | body => cases limb
      | head => exact free.2 rfl
      | hand => cases limb

theorem entered_setting_advances {reader next : Reader} (proper : reader.Proper)
    (setting : Setting) (entered : reader.entered setting.line = .ok next) :
    Advances reader none next := by
  have outside := outside_of_entered entered
  obtain ⟨_, rfl⟩ := (entered_setting outside).mp entered
  refine advances_of_same rfl ?_ rfl
  exact ⟨proper.settings.inForce [setting], proper.sound, proper.noBody, proper.noHead⟩

theorem entered_entry_advances {reader next : Reader} (proper : reader.Proper)
    (entry : Entry) (entered : reader.entered entry.line = .ok next) :
    Advances reader none next := by
  obtain ⟨block, inside⟩ := inside_of_entered entered
  obtain ⟨_, rfl⟩ := (entered_entry inside).mp entered
  refine advances_of_same rfl ⟨proper.settings, ?_, ?_, ?_⟩ rfl
  · rintro _ ⟨⟩ keyframe member
    rcases List.mem_append.mp member with earlier | here
    · exact proper.sound block inside keyframe earlier
    · obtain ⟨note, noted, rfl⟩ := List.mem_map.mp here
      exact notes_sound proper.settings _ [entry] note noted
  · rintro _ ⟨⟩
    exact proper.noBody block inside
  · rintro _ ⟨⟩
    exact proper.noHead block inside

theorem entered_advances {reader next : Reader} {line : Line} (proper : reader.Proper)
    (entered : reader.entered line = .ok next) : Advances reader (reader.closedBy line) next := by
  cases line with
  | header header => exact opened_advances proper entered
  | directive directive payload =>
      exact entered_setting_advances proper (.directive directive payload) entered
  | switch switch => exact entered_setting_advances proper (.switch switch) entered
  | aim => exact entered_entry_advances proper .aim entered
  | keyframe text => exact entered_entry_advances proper (.keyframe text) entered

theorem fed_advances {reader next : Reader} {raw : List Char} (proper : reader.Proper)
    (fed : reader.fed raw = .ok next) : Advances reader (reader.closing raw) next := by
  have step := fed_placed reader reader.lineCount reader.versionSeen raw
  rw [show reader.placed reader.lineCount reader.versionSeen = reader from rfl, fed] at step
  have still := advances_of_same rfl proper rfl
  cases skipped : isSkipped (lineText (reader.lineCount == 0) raw) with
  | true =>
      have nothing : reader.closing raw = none := by simp [closing, skipped]
      simp only [skipped, if_true, Except.ok.injEq] at step
      rw [nothing, step]
      exact still.placed _ _
  | false =>
      cases seen : reader.versionSeen with
      | false =>
          have nothing : reader.closing raw = none := by simp [closing, seen]
          simp only [skipped, seen, Bool.false_eq_true, if_false, Except.ok.injEq] at step
          rw [nothing, step]
          exact still.placed _ _
      | true =>
          simp only [skipped, seen, Bool.false_eq_true, if_false, if_true] at step
          obtain ⟨middle, entered, rfl⟩ := map_eq_ok_iff.mp step.symm
          have closed : reader.closing raw =
              reader.closedBy (.ofText (lineText (reader.lineCount == 0) raw)) := by
            simp [closing, skipped, seen]
          rw [closed]
          exact (entered_advances proper entered).placed _ _

theorem readLine_advances {reader next : Reader} {line : Bytes} (proper : reader.Proper)
    (read : reader.readLine line = .ok next) :
    Advances reader ((decode? line).bind reader.closing) next := by
  obtain ⟨text, decoded, fed⟩ := readLine_eq_ok_iff.mp read
  rw [decoded, Option.bind_some]
  exact fed_advances proper fed

theorem closings_cons {reader next : Reader} {line : Bytes} (read : reader.readLine line = .ok next)
    (rest : List Bytes) :
    reader.closings (line :: rest) =
      ((decode? line).bind reader.closing).toList ++ next.closings rest := by
  rw [closings, read]

/-- The tracks of a whole reading are made of the blocks that close in it. -/
theorem tracks_closings {reader last : Reader} {lines : List Bytes} (proper : reader.Proper)
    (read : reader.readLines lines = .ok last) :
    last.closed.clip.tracks.Perm
      (reader.clip.tracks ++ (reader.closings lines).map Block.track) := by
  induction lines generalizing reader with
  | nil =>
      cases read
      exact tracks_closed proper
  | cons line rest ih =>
      rw [readLines_cons, bind_eq_ok_iff] at read
      obtain ⟨next, first, later⟩ := read
      have advances := readLine_advances proper first
      rw [closings_cons first, List.map_append, ← List.append_assoc]
      exact (ih advances.proper later).trans (advances.tracks.append_right _)

/-- A block that closes is the one that has been open. -/
theorem mem_block_of_closing {reader : Reader} {raw : List Char} {block : Block}
    (closed : reader.closing raw = some block) : reader.block = some block := by
  simp only [closing] at closed
  split at closed
  next => cases closed
  next =>
      unfold closedBy at closed
      split at closed
      next => exact closed
      next => cases closed

theorem closings_sound {reader last : Reader} {lines : List Bytes} (proper : reader.Proper)
    (read : reader.readLines lines = .ok last) :
    ∀ block ∈ reader.closings lines, ∀ keyframe ∈ block.keyframes, keyframe.Sound := by
  induction lines generalizing reader with
  | nil => exact fun block member => proper.sound block (Option.mem_toList.mp member)
  | cons line rest ih =>
      rw [readLines_cons, bind_eq_ok_iff] at read
      obtain ⟨next, first, later⟩ := read
      rw [closings_cons first]
      intro block member
      rcases List.mem_append.mp member with here | behind
      · obtain ⟨text, _, closed⟩ := Option.bind_eq_some_iff.mp (Option.mem_toList.mp here)
        exact proper.sound block (mem_block_of_closing closed)
      · exact ih (readLine_advances proper first).proper later block behind

end Reader

namespace Block

theorem setBack_isAboutBlock {α : Type} (last : Option Single) (value : Option α)
    (position : Single) :
    (setBack last value position).filter Notice.isAboutBlock = setBack last value position := by
  unfold setBack
  split
  next => split <;> rfl
  next => rfl

theorem setBacks_isAboutBlock (duration : Single) (ends : Ends) (keyframes : List Keyframe) :
    (setBacks duration ends keyframes).filter Notice.isAboutBlock =
      setBacks duration ends keyframes := by
  induction keyframes generalizing ends with
  | nil => rfl
  | cons keyframe rest ih => simp only [setBacks, List.filter_append, setBack_isAboutBlock, ih]

theorem notices_isAboutBlock (key : ClipKey) (block : Block) :
    (block.notices key).filter Notice.isAboutBlock = block.notices key := by
  rw [notices, List.filter_append, setBacks_isAboutBlock]
  rfl

end Block

namespace Reader

theorem closingNotices_isAboutBlock (reader : Reader) :
    reader.closingNotices.filter Notice.isAboutBlock =
      reader.block.toList.flatMap (Block.notices reader.key) := by
  cases inside : reader.block with
  | none => simp [closingNotices, inside]
  | some block => simp [closingNotices, inside, Block.notices_isAboutBlock]

theorem entryNotices_isAboutBlock (reader : Reader) (line : Line) :
    (reader.entryNotices line).filter Notice.isAboutBlock =
      (reader.closedBy line).toList.flatMap (Block.notices reader.key) := by
  cases line with
  | header header => exact closingNotices_isAboutBlock reader
  | directive directive payload =>
      cases directive with
      | speed =>
          simp only [entryNotices]
          split <;> rfl
      | fps => rfl
      | scale => rfl
  | switch switch => rfl
  | aim => rfl
  | keyframe text => rfl

theorem notices_isAboutBlock (reader : Reader) (line : Bytes) :
    (reader.notices line).filter Notice.isAboutBlock =
      ((decode? line).bind reader.closing).toList.flatMap (Block.notices reader.key) := by
  unfold notices
  cases decode? line with
  | none => rfl
  | some text =>
      simp only [lineNotices, closing, Option.bind_some]
      split
      next => rfl
      next => exact entryNotices_isAboutBlock reader _

theorem endNotices_isAboutBlock {reader : Reader} (seen : reader.versionSeen = true) :
    reader.endNotices.filter Notice.isAboutBlock =
      reader.block.toList.flatMap (Block.notices reader.key) := by
  rw [endNotices, if_pos seen, List.filter_append, closingNotices_isAboutBlock]
  exact List.append_nil _

/-- What is said about blocks in a whole reading is what the closing of each one leaves. -/
theorem noticesFrom_isAboutBlock {reader last : Reader} {lines : List Bytes} {content : Bytes}
    (proper : reader.Proper) (read : reader.readLines lines = .ok last)
    (seen : last.versionSeen = true) :
    ((Delivery.whole content).noticesFrom reader lines).filter Notice.isAboutBlock =
      (reader.closings lines).flatMap (Block.notices reader.key) := by
  induction lines generalizing reader with
  | nil =>
      cases read
      exact endNotices_isAboutBlock seen
  | cons line rest ih =>
      rw [readLines_cons, bind_eq_ok_iff] at read
      obtain ⟨next, first, later⟩ := read
      have advances := readLine_advances proper first
      rw [closings_cons first, List.flatMap_append, Delivery.noticesFrom, first,
        List.filter_append, notices_isAboutBlock, ih advances.proper later, advances.key]

end Reader

theorem read_of_readClip {key : ClipKey} {content : Bytes} {clip : Clip}
    (read : readClip key content = .ok clip) :
    ∃ last, (Reader.start key).readLines (Delivery.whole content).lines = .ok last ∧
      last.versionSeen = true ∧ last.closed.clip = clip := by
  obtain ⟨last, lines, finished⟩ := bind_eq_ok_iff.mp read
  obtain ⟨seen, closed⟩ := Reader.finished_placed_eq_ok_iff.mp finished
  exact ⟨last, lines, seen, closed⟩

end ClipFile

end LimbAnimation
