import LimbAnimation.Proofs.ClipFile.Lines

/-!
# Following a sheet

What a reader has after the lines of a sheet is told by the sheet.  First the
settings are followed, then the passages; a passage is turned into a track by the
header after it or by the end of the file.
-/

namespace LimbAnimation.ClipFile

theorem notes_cons (numbers : Settings) (inHand : Bool) (entry : Entry) (rest : List Entry) :
    notes numbers inHand (entry :: rest) =
      notes numbers inHand [entry] ++ notes numbers inHand rest := by
  cases entry <;> simp [notes]

theorem allNoted_cons {numbers : Settings} {inHand : Bool} {entry : Entry} {rest : List Entry} :
    AllNoted numbers inHand (entry :: rest) ↔
      AllNoted numbers inHand [entry] ∧ AllNoted numbers inHand rest := by
  simp [AllNoted, or_imp, forall_and]

/-- The limb of a block, given how many hands have come before. -/
def Header.limb (hands : Nat) : Header → Limb
  | .body => .body
  | .head => .head
  | .hand => .hand hands

namespace Reader

/-- A reader outside all blocks after some settings. -/
def withSettings (reader : Reader) (settings : List Setting) : Reader :=
  { reader with
    settings := inForce reader.settings settings
    smooth := reader.smooth || decide (.switch .smooth ∈ settings)
    relativeHands := reader.relativeHands || decide (.switch .relative ∈ settings) }

@[simp] theorem withSettings_nil (reader : Reader) : reader.withSettings [] = reader := by
  simp [withSettings, inForce, lastValue]

theorem withSettings_cons (reader : Reader) (setting : Setting) (rest : List Setting) :
    reader.withSettings (setting :: rest) = (reader.withSettings [setting]).withSettings rest := by
  simp [withSettings, inForce, lastValue, Bool.or_assoc]

theorem entered_setting {reader next : Reader} {setting : Setting}
    (outside : reader.block = none) :
    reader.entered setting.line = .ok next ↔
      setting.Readable ∧ next = reader.withSettings [setting] := by
  have inside : reader.block.isSome = false := by rw [outside, Option.isSome_none]
  cases setting with
  | directive directive payload =>
      cases directive with
      | fps =>
          cases value : fps? payload <;>
            simp [Setting.line, entered, inside, directed, Setting.Readable, withSettings, inForce,
              lastValue, Setting.value?, value, eq_comm]
      | speed =>
          cases value : speed? payload <;>
            simp [Setting.line, entered, inside, directed, Setting.Readable, withSettings, inForce,
              lastValue, Setting.value?, value, eq_comm]
      | scale =>
          cases value : Text.readSingle? payload <;>
            simp [Setting.line, entered, inside, directed, Setting.Readable, withSettings, inForce,
              lastValue, Setting.value?, value, eq_comm]
  | switch switch =>
      cases switch <;>
        simp [Setting.line, entered, inside, Setting.Readable, withSettings, inForce, lastValue,
          Setting.value?, eq_comm]

/-- Before the first header, readable lines leave the settings in force. -/
theorem follow_settings {reader last : Reader} {settings : List Setting}
    (outside : reader.block = none) :
    reader.follow (settings.map Setting.line) = .ok last ↔
      (∀ setting ∈ settings, setting.Readable) ∧ last = reader.withSettings settings := by
  induction settings generalizing reader with
  | nil => simp [follow, pure, Except.pure, eq_comm]
  | cons setting rest ih =>
      have still : (reader.withSettings [setting]).block = none := outside
      rw [List.map_cons, follow_cons, bind_eq_ok_iff, withSettings_cons, List.forall_mem_cons]
      constructor
      · intro given
        obtain ⟨next, first, later⟩ := given
        obtain ⟨readable, rfl⟩ := (entered_setting outside).mp first
        obtain ⟨others, same⟩ := (ih still).mp later
        exact ⟨⟨readable, others⟩, same⟩
      · intro given
        obtain ⟨⟨readable, others⟩, same⟩ := given
        exact ⟨_, (entered_setting outside).mpr ⟨readable, rfl⟩, (ih still).mpr ⟨others, same⟩⟩

def noted (block : Block) (aims : Bool) (notes : List Note) : Block :=
  { block with
    followsAim := block.followsAim || aims
    keyframes := block.keyframes ++ notes.map Note.keyframe }

def withNotes (reader : Reader) (block : Block) (aims : Bool) (notes : List Note) : Reader :=
  { reader with
    block := some (noted block aims notes)
    restrictions := ⟨reader.restrictions.entries ++ notes.filterMap Note.entry?⟩ }

theorem withNotes_nil {reader : Reader} {block : Block} (inside : reader.block = some block) :
    reader.withNotes block false [] = reader := by
  simp [withNotes, noted, inside.symm]

theorem withNotes_append (reader : Reader) (block : Block) (aims others : Bool)
    (first later : List Note) :
    (reader.withNotes block aims first).withNotes (noted block aims first) others later =
      reader.withNotes block (aims || others) (first ++ later) := by
  simp [withNotes, noted, Bool.or_assoc]

theorem keyframe_eq_ok_iff {reader next : Reader} {block : Block} {text : List Char}
    (inside : reader.block = some block) :
    reader.keyframe text = .ok next ↔
      ∃ note, note? reader.settings (isHand block.limb) text = some note ∧
        next = reader.withNotes block false [note] := by
  simp only [keyframe, inside, note?]
  cases Draft.ofLine reader.settings (isHand block.limb) text with
  | error fault => simp [Except.toOption]
  | ok draft =>
      simp only [ok_bind]
      cases draft.keyframe reader.settings with
      | error fault => simp [Except.toOption]
      | ok keyframe =>
          cases given : draft.restrictions <;>
            simp [Except.toOption, withNotes, noted, Note.entry?, RestrictionTimeline.add, pure,
              Except.pure, List.filterMap_cons, eq_comm]

theorem entered_entry {reader next : Reader} {block : Block} {entry : Entry}
    (inside : reader.block = some block) :
    reader.entered entry.line = .ok next ↔
      AllNoted reader.settings (isHand block.limb) [entry] ∧
        next = reader.withNotes block (decide (.aim = entry))
          (notes reader.settings (isHand block.limb) [entry]) := by
  cases entry with
  | aim =>
      have aimed : reader.entered Entry.aim.line = .ok (reader.withNotes block true []) := by
        simp [Entry.line, entered, inside, withNotes, noted]
      have nothing : AllNoted reader.settings (isHand block.limb) [.aim] := by simp [AllNoted]
      rw [aimed, Except.ok.injEq]
      exact ⟨fun same => ⟨nothing, same.symm⟩, fun both => both.2.symm⟩
  | keyframe text =>
      apply (keyframe_eq_ok_iff inside).trans
      cases noted : note? reader.settings (isHand block.limb) text <;>
        simp [AllNoted, notes, noted]

/-- Within a block, well-formed keyframes are noted. -/
theorem follow_entries {reader last : Reader} {block : Block} {entries : List Entry}
    (inside : reader.block = some block) :
    reader.follow (entries.map Entry.line) = .ok last ↔
      AllNoted reader.settings (isHand block.limb) entries ∧
        last = reader.withNotes block (decide (.aim ∈ entries))
          (notes reader.settings (isHand block.limb) entries) := by
  induction entries generalizing reader block with
  | nil =>
      have still : reader.follow [] = .ok last ↔ last = reader := by
        simp [follow, pure, Except.pure, eq_comm]
      simp [still, AllNoted, notes, withNotes_nil inside]
  | cons entry rest ih =>
      have aims : decide (Entry.aim ∈ entry :: rest) =
          (decide (.aim = entry) || decide (.aim ∈ rest)) := by
        simp [List.mem_cons]
      let first := notes reader.settings (isHand block.limb) [entry]
      let middle := reader.withNotes block (decide (.aim = entry)) first
      have within : middle.block = some (noted block (decide (.aim = entry)) first) := rfl
      rw [List.map_cons, follow_cons, bind_eq_ok_iff, allNoted_cons, notes_cons, aims,
        ← withNotes_append]
      constructor
      · intro given
        obtain ⟨next, entered, later⟩ := given
        obtain ⟨readable, rfl⟩ := (entered_entry inside).mp entered
        obtain ⟨others, same⟩ := (ih within).mp later
        exact ⟨⟨readable, others⟩, same⟩
      · intro given
        obtain ⟨⟨readable, others⟩, same⟩ := given
        exact ⟨middle, (entered_entry inside).mpr ⟨readable, rfl⟩,
          (ih within).mpr ⟨others, same⟩⟩

/-- There is no other block of the header's limb yet. -/
def Free (reader : Reader) (header : Header) : Prop :=
  (header = .body → reader.body = none) ∧ (header = .head → reader.head = none)

/-- A header closes the open block and opens a new one. -/
theorem opened_eq_ok_iff {reader next : Reader} {header : Header} :
    reader.opened header = .ok next ↔
      reader.closed.Free header ∧
        next = { reader.closed with
          block := some (.start (header.limb reader.closed.hands.length)) } := by
  cases header with
  | body => cases found : reader.closed.body <;> simp [opened, Free, found, Header.limb, eq_comm]
  | head => cases found : reader.closed.head <;> simp [opened, Free, found, Header.limb, eq_comm]
  | hand => simp [opened, Free, Header.limb, eq_comm]

theorem closed_block (reader : Reader) : reader.closed.block = none := by
  unfold closed
  split
  next outside => exact outside
  next block inside => cases block.limb <;> rfl

theorem closed_settings (reader : Reader) : reader.closed.settings = reader.settings := by
  unfold closed
  split
  next outside => rfl
  next block inside => cases block.limb <;> rfl

/-- A reader, outside all blocks before, at the end of the lines of a passage. -/
def opening (reader : Reader) (passage : Passage) : Reader :=
  { reader with
    block := some (passage.block reader.settings (passage.header.limb reader.hands.length))
    restrictions :=
      ⟨reader.restrictions.entries ++ passage.restrictions reader.settings⟩ }

def withPassage (reader : Reader) (passage : Passage) : Reader :=
  let track := passage.track reader.settings (passage.header.limb reader.hands.length)
  let entries := reader.restrictions.entries ++ passage.restrictions reader.settings
  let reader := { reader with block := none, restrictions := ⟨entries⟩ }
  match passage.header with
  | .body => { reader with body := some track }
  | .head => { reader with head := some track }
  | .hand => { reader with hands := reader.hands ++ [track] }

theorem closed_opening (reader : Reader) (passage : Passage) :
    (reader.opening passage).closed = reader.withPassage passage := by
  obtain ⟨header, entries⟩ := passage
  cases header <;> rfl

theorem isHand_limb (header : Header) (hands : Nat) :
    isHand (header.limb hands) = (header == .hand) := by
  cases header <;> rfl

theorem follow_passage {reader last : Reader} {passage : Passage} :
    reader.follow passage.lines = .ok last ↔
      (reader.closed.Free passage.header ∧ passage.Readable reader.settings) ∧
        last = reader.closed.opening passage := by
  -- The number of a hand counts the block that the header has just closed.
  let limb := passage.header.limb reader.closed.hands.length
  let started : Reader := { reader.closed with block := some (.start limb) }
  have within : started.block = some (.start limb) := rfl
  have hand : isHand limb = passage.inHand := isHand_limb _ _
  have settings : started.settings = reader.settings := closed_settings reader
  have followed : started.follow (passage.entries.map Entry.line) = .ok last ↔
      passage.Readable reader.settings ∧ last = reader.closed.opening passage := by
    have entries : started.follow (passage.entries.map Entry.line) = .ok last ↔ _ :=
      follow_entries within
    have same : started.withNotes (.start limb) (decide (.aim ∈ passage.entries))
        (notes reader.settings passage.inHand passage.entries) =
          reader.closed.opening passage := by
      simp [withNotes, opening, noted, Block.start, started, limb, closed_settings,
        Passage.block, Passage.notes, Passage.restrictions]
    rwa [settings, show (Block.start limb).limb = limb from rfl, hand, same] at entries
  rw [Passage.lines, follow_cons, bind_eq_ok_iff]
  constructor
  · intro given
    obtain ⟨next, opened, later⟩ := given
    obtain ⟨free, rfl⟩ := opened_eq_ok_iff.mp opened
    obtain ⟨readable, same⟩ := followed.mp later
    exact ⟨⟨free, readable⟩, same⟩
  · intro given
    obtain ⟨⟨free, readable⟩, same⟩ := given
    exact ⟨started, opened_eq_ok_iff.mpr ⟨free, rfl⟩, followed.mpr ⟨readable, same⟩⟩

/-- The further passages leave at most one block for the body and one for the head,
and their keyframes are well-formed. -/
structure Admits (reader : Reader) (passages : List Passage) : Prop where
  oneBody : reader.body.toList.length + (headed .body passages).length ≤ 1
  oneHead : reader.head.toList.length + (headed .head passages).length ≤ 1
  readable : ∀ passage ∈ passages, passage.Readable reader.settings

theorem one_more {track : Option Track} {count : Nat} (new : Track) :
    track.toList.length + (count + 1) ≤ 1 ↔
      track = none ∧ (some new).toList.length + count ≤ 1 := by
  cases track with
  | none =>
      simp only [Option.toList_none, Option.toList_some, List.length_nil, List.length_singleton,
        true_and]
      omega
  | some earlier =>
      simp only [Option.toList_some, List.length_singleton, reduceCtorEq, false_and, iff_false]
      omega

theorem admits_cons {reader : Reader} {passage : Passage} {rest : List Passage} :
    reader.Admits (passage :: rest) ↔
      (reader.Free passage.header ∧ passage.Readable reader.settings) ∧
        (reader.withPassage passage).Admits rest := by
  obtain ⟨header, entries⟩ := passage
  constructor
  · intro given
    obtain ⟨oneBody, oneHead, readable⟩ := given
    obtain ⟨here, later⟩ := List.forall_mem_cons.mp readable
    cases header with
    | body =>
        obtain ⟨free, others⟩ := (one_more _).mp oneBody
        exact ⟨⟨⟨fun _ => free, nofun⟩, here⟩, others, oneHead, later⟩
    | head =>
        obtain ⟨free, others⟩ := (one_more _).mp oneHead
        exact ⟨⟨⟨nofun, fun _ => free⟩, here⟩, oneBody, others, later⟩
    | hand => exact ⟨⟨⟨nofun, nofun⟩, here⟩, oneBody, oneHead, later⟩
  · intro given
    obtain ⟨⟨⟨noBody, noHead⟩, here⟩, oneBody, oneHead, later⟩ := given
    cases header with
    | body =>
        exact ⟨(one_more _).mpr ⟨noBody rfl, oneBody⟩, oneHead,
          List.forall_mem_cons.mpr ⟨here, later⟩⟩
    | head =>
        exact ⟨oneBody, (one_more _).mpr ⟨noHead rfl, oneHead⟩,
          List.forall_mem_cons.mpr ⟨here, later⟩⟩
    | hand => exact ⟨oneBody, oneHead, List.forall_mem_cons.mpr ⟨here, later⟩⟩

def withPassages (reader : Reader) (passages : List Passage) : Reader :=
  { reader with
    body := reader.body.or
      ((headed .body passages).head?.map (Passage.track reader.settings .body))
    head := reader.head.or
      ((headed .head passages).head?.map (Passage.track reader.settings .head))
    hands := reader.hands ++ (headed .hand passages).mapIdx fun index passage =>
      passage.track reader.settings (.hand (reader.hands.length + index))
    restrictions := ⟨reader.restrictions.entries ++
      passages.flatMap (Passage.restrictions reader.settings)⟩ }

theorem withPassages_nil (reader : Reader) : reader.withPassages [] = reader := by
  simp [withPassages, headed]

theorem withPassages_cons {reader : Reader} {passage : Passage} (outside : reader.block = none)
    (free : reader.Free passage.header) (rest : List Passage) :
    reader.withPassages (passage :: rest) = (reader.withPassage passage).withPassages rest := by
  obtain ⟨header, entries⟩ := passage
  cases header with
  | body => simp [withPassages, withPassage, headed, outside, free.1 rfl, Header.limb]
  | head => simp [withPassages, withPassage, headed, outside, free.2 rfl, Header.limb]
  | hand =>
      simp [withPassages, withPassage, headed, outside, Header.limb, Nat.add_assoc,
        Nat.add_comm 1]

/-- Passages that can be followed are those that the reader admits. -/
theorem follow_passages {reader done : Reader} {passages : List Passage} :
    (reader.follow (passages.flatMap Passage.lines)).map closed = .ok done ↔
      reader.closed.Admits passages ∧ done = reader.closed.withPassages passages := by
  induction passages generalizing reader with
  | nil =>
      have admits : reader.closed.Admits [] :=
        ⟨Option.length_toList_le, Option.length_toList_le, by simp⟩
      have still : (reader.follow []).map closed = .ok reader.closed := rfl
      simp [still, admits, withPassages_nil, eq_comm]
  | cons passage rest ih =>
      rw [List.flatMap_cons, follow_append, map_eq_ok_iff, admits_cons, closed_settings]
      constructor
      · intro given
        obtain ⟨last, followed, same⟩ := given
        obtain ⟨middle, first, later⟩ := bind_eq_ok_iff.mp followed
        obtain ⟨⟨free, readable⟩, rfl⟩ := follow_passage.mp first
        obtain ⟨others, result⟩ := ih.mp (map_eq_ok_iff.mpr ⟨last, later, same⟩)
        rw [closed_opening] at others result
        rw [withPassages_cons (closed_block reader) free]
        exact ⟨⟨⟨free, readable⟩, others⟩, result⟩
      · intro given
        obtain ⟨⟨⟨free, readable⟩, others⟩, result⟩ := given
        rw [withPassages_cons (closed_block reader) free] at result
        rw [← closed_opening] at others result
        obtain ⟨last, later, same⟩ := map_eq_ok_iff.mp (ih.mpr ⟨others, result⟩)
        exact ⟨last, bind_eq_ok_iff.mpr ⟨_, follow_passage.mpr ⟨⟨free, readable⟩, rfl⟩, later⟩,
          same⟩

theorem outside_of_entered {reader next : Reader} {setting : Setting}
    (entered : reader.entered setting.line = .ok next) : reader.block = none := by
  cases inside : reader.block with
  | none => rfl
  | some block => cases setting <;> simp [Setting.line, Reader.entered, inside] at entered

theorem inside_of_entered {reader next : Reader} {entry : Entry}
    (entered : reader.entered entry.line = .ok next) :
    ∃ block, reader.block = some block := by
  cases outside : reader.block with
  | some block => exact ⟨block, rfl⟩
  | none => cases entry <;> simp [Entry.line, Reader.entered, keyframe, outside] at entered

/-- A setting stands before the rest of a sheet. -/
theorem shape_of_setting {reader next : Reader} {rest : List Line} (setting : Setting)
    (entered : reader.entered setting.line = .ok next)
    (outer : next.block = none → ∃ sheet : Sheet, sheet.lines = rest) :
    reader.block = none ∧ ∃ sheet : Sheet, sheet.lines = setting.line :: rest := by
  have outside := outside_of_entered entered
  obtain ⟨_, rfl⟩ := (entered_setting outside).mp entered
  obtain ⟨⟨settings, passages⟩, rfl⟩ := outer outside
  exact ⟨outside, ⟨setting :: settings, passages⟩, rfl⟩

/-- An entry stands before the rest of a block. -/
theorem shape_of_entry {reader next : Reader} {rest : List Line} (entry : Entry)
    (entered : reader.entered entry.line = .ok next)
    (inner : next.block ≠ none → ∃ (entries : List Entry) (passages : List Passage),
      entries.map Entry.line ++ passages.flatMap Passage.lines = rest) :
    reader.block ≠ none ∧ ∃ (entries : List Entry) (passages : List Passage),
      entries.map Entry.line ++ passages.flatMap Passage.lines = entry.line :: rest := by
  obtain ⟨block, inside⟩ := inside_of_entered entered
  obtain ⟨_, rfl⟩ := (entered_entry inside).mp entered
  obtain ⟨entries, passages, rfl⟩ := inner (by simp [withNotes])
  exact ⟨by simp [inside], entry :: entries, passages, rfl⟩

/-- What can be followed outside all blocks are the lines of a sheet, and within a
block, entries come first and then passages. -/
theorem shape_of_follow {reader last : Reader} {lines : List Line}
    (followed : reader.follow lines = .ok last) :
    (reader.block = none → ∃ sheet : Sheet, sheet.lines = lines) ∧
      (reader.block ≠ none → ∃ (entries : List Entry) (passages : List Passage),
        entries.map Entry.line ++ passages.flatMap Passage.lines = lines) := by
  induction lines generalizing reader with
  | nil => exact ⟨fun _ => ⟨⟨[], []⟩, rfl⟩, fun _ => ⟨[], [], rfl⟩⟩
  | cons line rest ih =>
      rw [follow_cons, bind_eq_ok_iff] at followed
      obtain ⟨next, entered, later⟩ := followed
      obtain ⟨outer, inner⟩ := ih later
      cases line with
      | header header =>
          obtain ⟨_, rfl⟩ := opened_eq_ok_iff.mp entered
          obtain ⟨entries, passages, rfl⟩ := inner (by simp)
          exact ⟨fun _ => ⟨⟨[], ⟨header, entries⟩ :: passages⟩, rfl⟩,
            fun _ => ⟨[], ⟨header, entries⟩ :: passages, rfl⟩⟩
      | directive directive payload =>
          obtain ⟨outside, shape⟩ := shape_of_setting (.directive directive payload) entered outer
          exact ⟨fun _ => shape, fun inside => absurd outside inside⟩
      | switch switch =>
          obtain ⟨outside, shape⟩ := shape_of_setting (.switch switch) entered outer
          exact ⟨fun _ => shape, fun inside => absurd outside inside⟩
      | aim =>
          obtain ⟨inside, shape⟩ := shape_of_entry .aim entered inner
          exact ⟨fun outside => absurd outside inside, fun _ => shape⟩
      | keyframe text =>
          obtain ⟨inside, shape⟩ := shape_of_entry (.keyframe text) entered inner
          exact ⟨fun outside => absurd outside inside, fun _ => shape⟩

/-- Outside all blocks there is nothing to close. -/
theorem closed_of_outside {reader : Reader} (outside : reader.block = none) :
    reader.closed = reader := by
  simp [closed, outside]

/-- What the reader has got before the first header of a sheet. -/
def prepared (key : ClipKey) (sheet : Sheet) : Reader :=
  (start key).withSettings sheet.settings

theorem admits_prepared {key : ClipKey} {sheet : Sheet} :
    (∀ setting ∈ sheet.settings, setting.Readable) ∧ (prepared key sheet).Admits sheet.passages ↔
      sheet.WellFormed := by
  have noBody : (prepared key sheet).body.toList.length = 0 := rfl
  have noHead : (prepared key sheet).head.toList.length = 0 := rfl
  constructor
  · intro given
    obtain ⟨settings, oneBody, oneHead, readable⟩ := given
    exact ⟨settings, by omega, by omega, readable⟩
  · intro given
    obtain ⟨settings, oneBody, oneHead, readable⟩ := given
    exact ⟨settings, by omega, by omega, readable⟩

theorem clip_prepared (key : ClipKey) (sheet : Sheet) :
    ((prepared key sheet).withPassages sheet.passages).clip = sheet.clip key := by
  simp [prepared, withPassages, withSettings, start, Reader.clip, Sheet.clip, Sheet.numbers,
    RestrictionTimeline.empty]

/-- The lines of a sheet can be followed when it is well-formed, and give its clip. -/
theorem follow_sheet {key : ClipKey} {clip : Clip} (sheet : Sheet) :
    (∃ last, (start key).follow sheet.lines = .ok last ∧ last.closed.clip = clip) ↔
      sheet.WellFormed ∧ clip = sheet.clip key := by
  have outside : (prepared key sheet).block = none := rfl
  have begun {next : Reader} : (start key).follow (sheet.settings.map Setting.line) = .ok next ↔
      _ ∧ next = prepared key sheet := follow_settings rfl
  rw [← admits_prepared, Sheet.lines, follow_append]
  constructor
  · intro given
    obtain ⟨last, followed, rfl⟩ := given
    obtain ⟨next, first, later⟩ := bind_eq_ok_iff.mp followed
    obtain ⟨readable, rfl⟩ := begun.mp first
    obtain ⟨admits, done⟩ := follow_passages.mp (map_eq_ok_iff.mpr ⟨last, later, rfl⟩)
    rw [closed_of_outside outside] at admits done
    exact ⟨⟨readable, admits⟩, done ▸ clip_prepared key sheet⟩
  · intro given
    obtain ⟨⟨readable, admits⟩, rfl⟩ := given
    rw [← closed_of_outside outside] at admits
    obtain ⟨last, later, closed⟩ := map_eq_ok_iff.mp (follow_passages.mpr ⟨admits, rfl⟩)
    rw [closed_of_outside outside] at closed
    refine ⟨last, bind_eq_ok_iff.mpr ⟨_, begun.mpr ⟨readable, rfl⟩, later⟩, ?_⟩
    rw [closed, clip_prepared]

end Reader

end LimbAnimation.ClipFile
