import LimbAnimation.Proofs.ClipFile.TextFile
import LimbAnimation.Proofs.Text.Trim

/-!
# Noise

Blanks around a line, a byte order mark before the first one, blank lines and comments
change nothing of what a file says.  A line that comes in between is counted, however:
the faults after it have moved on by one line.
-/

namespace LimbAnimation

namespace ClipFile

/-- A line that says nothing: a blank one or a comment. -/
def IsNoise (line : List Char) : Prop := Text.AllBlank line ∨ ∃ comment, line = '#' :: comment

/-- Lines with a byte order mark before them. -/
def marked : List (List Char) → List (List Char)
  | [] => [[byteOrderMark]]
  | first :: rest => (byteOrderMark :: first) :: rest

theorem lineText_of_pads {text padded : List Char} (pads : Text.Pads text padded) (isFirst : Bool) :
    lineText isFirst padded = lineText isFirst text := by
  simp only [lineText, pads.trim_eq]

theorem dropWhile_mark {text : List Char} (unmarked : byteOrderMark ∉ text) :
    text.dropWhile (· == byteOrderMark) = text := by
  cases text with
  | nil => rfl
  | cons head rest =>
      apply List.dropWhile_cons_of_neg
      intro same
      exact unmarked (beq_iff_eq.mp same ▸ List.mem_cons_self)

theorem lineText_mark {text : List Char} (unmarked : byteOrderMark ∉ text) :
    lineText true (byteOrderMark :: text) = lineText true text := by
  have visible : Text.isBlank byteOrderMark = false := by decide
  have inner : byteOrderMark ∉ text.rdropWhile Text.isBlank := fun member =>
    unmarked ((List.rdropWhile_prefix _ _).subset member)
  calc
    lineText true (byteOrderMark :: text)
      = Text.trim (text.rdropWhile Text.isBlank) := by
        rw [lineText, Text.trim_cons visible, if_pos rfl, List.dropWhile_cons_of_pos (by simp),
          dropWhile_mark inner]
    _ = Text.trim text := (Text.pads_rdropWhile text).trim_eq.symm
    _ = Text.trim (Text.trim text) := (Text.pads_trim text).trim_eq
    _ = lineText true text := by
        have trimmed : byteOrderMark ∉ Text.trim text := fun member =>
          unmarked (Text.mem_of_mem_trim member)
        rw [lineText, if_pos rfl, dropWhile_mark trimmed]

theorem isSkipped_noise {line : List Char} (noise : IsNoise line) :
    isSkipped (lineText false line) = true := by
  rcases noise with blank | ⟨comment, rfl⟩
  · rw [lineText, Text.trim_of_allBlank blank]
    rfl
  · rw [lineText, Text.trim_cons (by decide)]
    rfl

/-- The faulty line has moved on by one. -/
def FaultyLine.moved (faulty : FaultyLine) : FaultyLine := { faulty with line := faulty.line + 1 }

/-- A faulty line when a line has been put in after as many lines as given.  The lack of a
version is always a fault of the last line. -/
def FaultyLine.passed (place : Nat) (faulty : FaultyLine) : FaultyLine :=
  if faulty.fault = .missingVersion ∨ place < faulty.line then faulty.moved else faulty

namespace Reader

variable {reader : Reader}

theorem readLine_utf8 (reader : Reader) (text : List Char) :
    reader.readLine (utf8 text) =
      (reader.fed text).mapError fun fault => ⟨reader.lineCount + 1, fault⟩ := by
  rw [readLine, decode?_utf8]

/-- Of a line the reader sees only its text. -/
theorem readLine_congr {text other : List Char}
    (same : lineText (reader.lineCount == 0) text = lineText (reader.lineCount == 0) other) :
    reader.readLine (utf8 text) = reader.readLine (utf8 other) := by
  simp only [readLine_utf8, fed, same]

theorem readLines_pads {texts padded : List (List Char)}
    (pads : List.Forall₂ Text.Pads texts padded)
    (reader : Reader) : reader.readLines (padded.map utf8) = reader.readLines (texts.map utf8) := by
  induction pads generalizing reader with
  | nil => rfl
  | cons first _ ih =>
      rw [List.map_cons, List.map_cons, readLines_cons, readLines_cons,
        readLine_congr (lineText_of_pads first _)]
      exact bind_congr ih

/-- The reader one line further on. -/
def moved (reader : Reader) : Reader := { reader with lineCount := reader.lineCount + 1 }

/-- What comes of some lines, one line further on. -/
def movedOutcome (outcome : Except FaultyLine Reader) : Except FaultyLine Reader :=
  (outcome.map moved).mapError FaultyLine.moved

theorem fed_moved (begun : 0 < reader.lineCount) (text : List Char) :
    reader.moved.fed text = (reader.fed text).map moved := by
  have notFirst : (reader.lineCount == 0) = false := beq_eq_false_iff_ne.mpr begun.ne'
  have here := fed_placed reader reader.lineCount reader.versionSeen text
  have next := fed_placed reader (reader.lineCount + 1) reader.versionSeen text
  rw [show reader.placed reader.lineCount reader.versionSeen = reader from rfl, notFirst] at here
  rw [show reader.placed (reader.lineCount + 1) reader.versionSeen = reader.moved from rfl,
    show (reader.lineCount + 1 == 0) = false from rfl] at next
  rw [here, next]
  dsimp only
  split
  next => rfl
  next =>
      split
      next => cases reader.entered (.ofText (lineText false text)) <;> rfl
      next => rfl

theorem readLine_moved (begun : 0 < reader.lineCount) (line : Bytes) :
    reader.moved.readLine line = movedOutcome (reader.readLine line) := by
  unfold readLine
  cases decode? line with
  | none => rfl
  | some text =>
      simp only [fed_moved begun]
      cases reader.fed text <;> rfl

theorem readLines_moved (begun : 0 < reader.lineCount) (lines : List Bytes) :
    reader.moved.readLines lines = movedOutcome (reader.readLines lines) := by
  induction lines generalizing reader with
  | nil => rfl
  | cons line rest ih =>
      rw [readLines_cons, readLines_cons, readLine_moved begun]
      cases read : reader.readLine line with
      | error faulty => rfl
      | ok next =>
          have later : 0 < next.lineCount := by
            rw [readLine_lineCount read]
            exact Nat.succ_pos _
          exact ih later

theorem finished_moved (begun : 0 < reader.lineCount) :
    reader.moved.finished = reader.finished.mapError FaultyLine.moved := by
  have clip : reader.moved.closed.clip = reader.closed.clip := by
    have placed := closed_placed reader (reader.lineCount + 1) reader.versionSeen
    rw [show reader.moved.closed = _ from placed]
    rfl
  unfold finished
  rw [clip, show reader.moved.versionSeen = reader.versionSeen from rfl]
  cases reader.versionSeen with
  | true => rfl
  | false =>
      have last : max 1 reader.moved.lineCount = max 1 reader.lineCount + 1 := by
        change max 1 (reader.lineCount + 1) = _
        omega
      simp [last, Except.mapError, FaultyLine.moved]

theorem readLine_noise (begun : 0 < reader.lineCount) {line : List Char} (noise : IsNoise line) :
    reader.readLine (utf8 line) = .ok reader.moved := by
  have notFirst : (reader.lineCount == 0) = false := beq_eq_false_iff_ne.mpr begun.ne'
  rw [readLine_utf8, fed, notFirst, isSkipped_noise noise]
  rfl

/-- A fault that the reader meets lies ahead of it and is that of a line. -/
theorem readLines_faults {lines : List Bytes} {faulty : FaultyLine}
    (failed : reader.readLines lines = .error faulty) :
    reader.lineCount < faulty.line ∧ faulty.fault ≠ .missingVersion := by
  obtain ⟨before, line, _, reached, _, read, fails⟩ := foldlM_eq_error_iff.mp failed
  obtain ⟨number, own⟩ := readLine_error fails
  rw [readLines_lineCount read] at number
  refine ⟨by omega, fun missing => ?_⟩
  rw [missing] at own
  cases own

end Reader

theorem TextFile.readClip_content (key : ClipKey) (file : TextFile) :
    readClip key file.content =
      (Reader.start key).readLines (file.lines.map utf8) >>= Reader.finished := by
  rw [← file.lines_of_content]
  rfl

variable {key : ClipKey} {file other : TextFile}

theorem readClip_of_pads (pads : List.Forall₂ Text.Pads file.lines other.lines) :
    readClip key other.content = readClip key file.content := by
  rw [TextFile.readClip_content, TextFile.readClip_content, Reader.readLines_pads pads]

theorem readClip_of_marked (unmarked : ∀ first ∈ file.lines.head?, byteOrderMark ∉ first)
    (same : other.lines = marked file.lines) :
    readClip key other.content = readClip key file.content := by
  rw [TextFile.readClip_content, TextFile.readClip_content, same]
  cases lines : file.lines with
  | nil =>
      -- The mark alone is a blank line, and a file that says nothing fails in its first line.
      have blank : (Reader.start key).readLine (utf8 [byteOrderMark]) =
          .ok (Reader.start key).moved := by
        rw [Reader.readLine_utf8]
        rfl
      rw [marked, List.map_singleton, Reader.readLines_cons, blank]
      rfl
  | cons first rest =>
      have unmarkedFirst : byteOrderMark ∉ first := unmarked first (by simp [lines])
      have sameLine : (Reader.start key).readLine (utf8 (byteOrderMark :: first)) =
          (Reader.start key).readLine (utf8 first) :=
        Reader.readLine_congr (lineText_mark unmarkedFirst)
      rw [marked, List.map_cons, List.map_cons, Reader.readLines_cons, Reader.readLines_cons,
        sameLine]

theorem finished_passed {reader : Reader} (begun : 0 < reader.lineCount) (place : Nat) :
    reader.moved.finished = reader.finished.mapError (.passed place) := by
  rw [Reader.finished_moved begun]
  cases ended : reader.finished with
  | ok clip => rfl
  | error faulty =>
      obtain ⟨_, rfl⟩ := finished_eq_error_iff.mp ended
      rfl

theorem readClip_of_noise {before after : List (List Char)} {noise : List Char}
    (some : before ≠ []) (isNoise : IsNoise noise) (lines : file.lines = before ++ after)
    (otherLines : other.lines = before ++ noise :: after) :
    readClip key other.content = (readClip key file.content).mapError (.passed before.length) := by
  rw [TextFile.readClip_content, TextFile.readClip_content, lines, otherLines, List.map_append,
    List.map_append, Reader.readLines_append, Reader.readLines_append]
  cases first : (Reader.start key).readLines (before.map utf8) with
  | error faulty =>
      obtain ⟨_, inside, own, _⟩ := Reader.readLines_error first
      rw [List.length_map] at inside
      have stays : faulty.passed before.length = faulty := by
        rw [FaultyLine.passed, if_neg]
        rintro (missing | past)
        · rw [missing] at own
          cases own
        · omega
      exact congrArg Except.error stays.symm
  | ok reader =>
      have count := Reader.lineCount_of_readLines_start first
      rw [List.length_map] at count
      have begun : 0 < reader.lineCount := count ▸ List.length_pos_of_ne_nil some
      rw [ok_bind, ok_bind, List.map_cons, Reader.readLines_cons,
        Reader.readLine_noise begun isNoise, ok_bind, Reader.readLines_moved begun]
      cases later : reader.readLines (after.map utf8) with
      | error faulty =>
          have past := (Reader.readLines_faults later).1
          rw [count] at past
          have moves : faulty.passed before.length = faulty.moved := if_pos (.inr past)
          exact congrArg Except.error moves.symm
      | ok last =>
          have counted := Reader.readLines_lineCount later
          exact finished_passed (by omega) before.length

/-- What a file says does not depend on its noise.  With blanks around its lines, or with a
byte order mark before a first line that has none, it is read in the same way.  With a blank
line or a comment put in after some of its lines, it gives the same clip or the same fault;
the faulty line has then moved on by one if it comes after these lines.  The lack of a
version is a fault of the last line. -/
theorem noise_does_not_matter (key : ClipKey) (file other : TextFile) :
    (List.Forall₂ Text.Pads file.lines other.lines →
      readClip key other.content = readClip key file.content) ∧
    ((∀ first ∈ file.lines.head?, byteOrderMark ∉ first) → other.lines = marked file.lines →
      readClip key other.content = readClip key file.content) ∧
    (∀ before noise after, before ≠ [] → IsNoise noise →
      file.lines = before ++ after → other.lines = before ++ noise :: after →
        readClip key other.content =
          (readClip key file.content).mapError (.passed before.length)) ∧
    (∀ line, readClip key file.content = .error ⟨line, .missingVersion⟩ →
      line = max 1 file.lines.length) := by
  refine ⟨readClip_of_pads, readClip_of_marked, fun _ _ _ => readClip_of_noise, ?_⟩
  intro line failed
  have last := (missingVersion_iff.mp failed).2
  rwa [file.lines_of_content, List.length_map] at last

/-- A file whose third line is faulty, with carriage returns and other blanks, with a byte
order mark, and with a comment before the faulty line. -/
theorem noise_does_not_matter_at_unknown_token :
    let key : ClipKey := ⟨"fall", "guard"⟩
    let file : TextFile := ⟨["1", "BODY", "leap"].map String.toList, by decide, false, by decide⟩
    let padded : TextFile :=
      ⟨["1\r", "\tBODY\r", " leap\r"].map String.toList, by decide, true, by decide⟩
    let headed : TextFile := ⟨marked file.lines, by decide, false, by decide⟩
    let commented : TextFile :=
      ⟨["1", "BODY", "# at once", "leap"].map String.toList, by decide, true, by decide⟩
    readClip key file.content = .error ⟨3, .unknownToken "leap"⟩ ∧
      readClip key padded.content = .error ⟨3, .unknownToken "leap"⟩ ∧
      readClip key headed.content = .error ⟨3, .unknownToken "leap"⟩ ∧
      readClip key commented.content = .error ⟨4, .unknownToken "leap"⟩ := by
  intro key file padded headed commented
  have computed : readClip key file.content = .error ⟨3, .unknownToken "leap"⟩ := by
    decide +kernel
  have pads : List.Forall₂ Text.Pads file.lines padded.lines :=
    .cons ⟨[], ['\r'], by decide, by decide, rfl⟩
      (.cons ⟨['\t'], ['\r'], by decide, by decide, rfl⟩
        (.cons ⟨[' '], ['\r'], by decide, by decide, rfl⟩ .nil))
  have comment : IsNoise "# at once".toList := .inr ⟨" at once".toList, rfl⟩
  have asPadded := (noise_does_not_matter key file padded).1 pads
  have asHeaded := (noise_does_not_matter key file headed).2.1 (by decide) rfl
  have asCommented := (noise_does_not_matter key file commented).2.2.1
    ["1".toList, "BODY".toList] "# at once".toList ["leap".toList] (by decide) comment rfl rfl
  rw [computed] at asPadded asHeaded asCommented
  exact ⟨computed, asPadded, asHeaded, asCommented⟩

end ClipFile

end LimbAnimation
