import LimbAnimation.Proofs.ClipFile.Lines
import LimbAnimation.Proofs.Text.Pieces

/-!
# The first fault

A file that has a faulty line fails there: the lines up to it decide the fault, and
what follows them has no influence.  A file without a faulty line fails only if it
says nothing at all, and a source that breaks off is read up to its last newline.
-/

namespace LimbAnimation

namespace ClipFile

namespace Delivery

theorem length_lines_interrupted (content : Bytes) (reason : String) :
    (interrupted content reason).lines.length = content.count newline := by
  rw [lines, List.length_dropLast, Text.length_pieces]
  rfl

/-- A source that breaks off has delivered the lines that the whole file begins with. -/
theorem take_lines_whole (content more : Bytes) (reason : String) :
    (whole (content ++ more)).lines.take (content.count newline) =
      (interrupted content reason).lines := by
  have parts := Text.take_pieces_append (· == newline) content more
  have length := Text.length_pieces (· == newline) (content ++ more)
  rw [List.countP_append] at length
  rw [lines, lines, ← parts]
  -- Only a last part without a newline may be missing from the lines of the whole file.
  split
  next =>
      rw [List.dropLast_eq_take, List.take_take, length]
      congr 1
      exact Nat.min_eq_left (Nat.le_add_right ..)
  next => rfl

end Delivery

/-- Whether a fault is that of a line rather than of the file or its source. -/
def Fault.onLine : Fault → Bool
  | missingVersion | readFailed _ => false
  | _ => true

/-- A line is refused for a fault of its own only. -/
def FaultsOnLine {α : Type} (outcome : Except Fault α) : Prop :=
  ∀ fault, outcome = .error fault → fault.onLine = true

namespace FaultsOnLine

variable {α β : Type}

theorem ok (value : α) : FaultsOnLine (.ok value) :=
  fun _ failed => nomatch failed

theorem error {fault : Fault} (own : fault.onLine = true) :
    FaultsOnLine (.error fault : Except Fault α) := by
  rintro _ ⟨⟩
  exact own

theorem bind {outcome : Except Fault α} {next : α → Except Fault β}
    (first : FaultsOnLine outcome) (later : ∀ value, FaultsOnLine (next value)) :
    FaultsOnLine (outcome >>= next) := by
  intro fault failed
  rcases bind_eq_error_iff.mp failed with here | ⟨value, _, there⟩
  · exact first fault here
  · exact later value fault there

theorem foldlM {step : β → α → Except Fault β} (each : ∀ state item, FaultsOnLine (step state item))
    (state : β) (items : List α) : FaultsOnLine (items.foldlM step state) := by
  intro fault failed
  obtain ⟨_, item, _, reached, _, _, fails⟩ := foldlM_eq_error_iff.mp failed
  exact each reached item fault fails

end FaultsOnLine

namespace Draft

theorem decimal_faults (text : List Char) : FaultsOnLine (decimal text) := by
  unfold decimal
  split
  next => exact .ok _
  next => exact .error rfl

theorem restrictionsOf_faults (names : List Char) : FaultsOnLine (restrictionsOf names) := by
  refine .foldlM (fun set name => ?_) _ _
  split
  next => exact .ok _
  next => exact .error rfl

theorem enterTime_faults (draft : Draft) (time : Single) :
    FaultsOnLine (draft.enterTime time) := by
  unfold enterTime
  split
  next => exact .error rfl
  next =>
      split
      next => exact .error rfl
      next => exact .ok _

theorem enter_faults (settings : Settings) (inHand : Bool) (draft : Draft) (token : List Char) :
    FaultsOnLine (draft.enter settings inHand token) := by
  unfold enter
  cases Token.ofSpelling token with
  | restrictions names =>
      dsimp only
      split
      next => exact .error rfl
      next => exact .bind (restrictionsOf_faults names) fun _ => .ok _
  | scale inside =>
      dsimp only
      split
      next => exact .error rfl
      next =>
          split
          next => exact .ok _
          next => exact .error rfl
  | rotation number =>
      dsimp only
      split
      next => exact .error rfl
      next => exact .bind (decimal_faults number) fun _ => .ok _
  | offset number => exact .bind (decimal_faults number) fun _ => .ok _
  | seconds number => exact .bind (decimal_faults number) fun _ => enterTime_faults draft _
  | frames =>
      dsimp only
      split
      next => exact enterTime_faults draft _
      next => exact .error rfl
  | word =>
      dsimp only
      split
      next =>
          split
          next => exact .error rfl
          next =>
              split
              next => exact .error rfl
              next => exact .ok _
      next => exact .error rfl
  | other => exact .error rfl

theorem ofLine_faults (settings : Settings) (inHand : Bool) (line : List Char) :
    FaultsOnLine (ofLine settings inHand line) := by
  unfold ofLine
  split
  next => exact .error rfl
  next => exact .foldlM (enter_faults settings inHand) _ _

theorem keyframe_faults (draft : Draft) (settings : Settings) :
    FaultsOnLine (draft.keyframe settings) := by
  unfold keyframe
  split
  next => exact .error rfl
  next =>
      refine .bind ?_ fun _ => .ok _
      unfold position
      split
      next => exact .ok _
      next => exact .ok _
      next => exact .error rfl

end Draft

namespace Reader

theorem directed_faults (settings : Settings) (directive : Directive) (payload : List Char) :
    FaultsOnLine (directed settings directive payload) := by
  cases directive with
  | fps =>
      unfold directed
      dsimp only
      split
      next => exact .ok _
      next => exact .error rfl
  | speed =>
      unfold directed
      dsimp only
      split
      next => exact .ok _
      next => exact .ok _
  | scale =>
      unfold directed
      dsimp only
      split
      next => exact .ok _
      next => exact .error rfl

theorem opened_faults (reader : Reader) (header : Header) :
    FaultsOnLine (reader.opened header) := by
  unfold opened
  cases header with
  | body =>
      dsimp only
      split
      next => exact .error rfl
      next => exact .ok _
  | head =>
      dsimp only
      split
      next => exact .error rfl
      next => exact .ok _
  | hand => exact .ok _

theorem keyframe_faults (reader : Reader) (text : List Char) :
    FaultsOnLine (reader.keyframe text) := by
  unfold keyframe
  split
  next => exact .error rfl
  next block _ =>
      exact .bind (Draft.ofLine_faults reader.settings (isHand block.limb) text) fun draft =>
        .bind (draft.keyframe_faults reader.settings) fun _ => .ok _

theorem entered_faults (reader : Reader) (line : Line) : FaultsOnLine (reader.entered line) := by
  unfold entered
  cases line with
  | header header => exact opened_faults reader header
  | directive directive payload =>
      dsimp only
      split
      next => exact .error rfl
      next => exact .bind (directed_faults reader.settings directive payload) fun _ => .ok _
  | switch switch =>
      dsimp only
      split
      next => exact .error rfl
      next =>
          cases switch with
          | smooth => exact .ok _
          | relative => exact .ok _
  | aim =>
      dsimp only
      split
      next => exact .ok _
      next => exact .error rfl
  | keyframe text => exact keyframe_faults reader text

theorem fed_faults (reader : Reader) (raw : List Char) : FaultsOnLine (reader.fed raw) := by
  unfold fed
  dsimp only
  split
  next => exact .ok _
  next =>
      split
      next => exact .ok _
      next => exact entered_faults _ _

theorem readLine_error {reader : Reader} {line : Bytes} {faulty : FaultyLine}
    (failed : reader.readLine line = .error faulty) :
    faulty.line = reader.lineCount + 1 ∧ faulty.fault.onLine = true := by
  obtain ⟨fault, cause, rfl⟩ := mapError_eq_error_iff.mp failed
  refine ⟨rfl, ?_⟩
  cases decoded : decode? line with
  | none =>
      simp only [decoded] at cause
      cases cause
      rfl
  | some text =>
      simp only [decoded] at cause
      exact fed_faults reader text fault cause

theorem readLine_lineCount {reader next : Reader} {line : Bytes}
    (read : reader.readLine line = .ok next) : next.lineCount = reader.lineCount + 1 := by
  obtain ⟨text, _, fed⟩ := readLine_eq_ok_iff.mp read
  have branches := fed_placed reader reader.lineCount reader.versionSeen text
  rw [show reader.placed reader.lineCount reader.versionSeen = reader from rfl, fed] at branches
  dsimp only at branches
  split at branches
  next =>
      cases branches
      rfl
  next =>
      split at branches
      next =>
          obtain ⟨_, _, rfl⟩ := map_eq_ok_iff.mp branches.symm
          rfl
      next =>
          cases branches
          rfl

theorem readLines_lineCount {reader last : Reader} {lines : List Bytes}
    (read : reader.readLines lines = .ok last) :
    last.lineCount = reader.lineCount + lines.length := by
  induction lines generalizing reader with
  | nil =>
      cases read
      rfl
  | cons line rest ih =>
      rw [readLines_cons, bind_eq_ok_iff] at read
      obtain ⟨next, first, later⟩ := read
      rw [ih later, readLine_lineCount first, List.length_cons]
      omega

theorem lineCount_of_readLines_start {key : ClipKey} {last : Reader} {lines : List Bytes}
    (read : (start key).readLines lines = .ok last) : last.lineCount = lines.length := by
  rw [readLines_lineCount read, start, Nat.zero_add]

/-- The first faulty line lies among the lines, and the fault stays as long as the lines
up to it do. -/
theorem readLines_error {key : ClipKey} {lines : List Bytes} {faulty : FaultyLine}
    (failed : (start key).readLines lines = .error faulty) :
    1 ≤ faulty.line ∧ faulty.line ≤ lines.length ∧ faulty.fault.onLine = true ∧
      ∀ others, others.take faulty.line = lines.take faulty.line →
        (start key).readLines others = .error faulty := by
  -- Files with the same lines up to the faulty one bring the reader to the same place.
  obtain ⟨before, line, after, reached, rfl, read, fails⟩ := foldlM_eq_error_iff.mp failed
  obtain ⟨number, own⟩ := readLine_error fails
  rw [lineCount_of_readLines_start read] at number
  refine ⟨by omega, ?_, own, fun others same => ?_⟩
  · simp only [List.length_append, List.length_cons]
    omega
  · have begins : others = before ++ line :: others.drop faulty.line := by
      have first : (before ++ line :: after).take faulty.line = before ++ [line] := by
        rw [number, List.append_cons, List.take_left' (by simp)]
      calc
        others = others.take faulty.line ++ others.drop faulty.line :=
          (List.take_append_drop ..).symm
        _ = before ++ [line] ++ others.drop faulty.line := by rw [same, first]
        _ = before ++ line :: others.drop faulty.line := (List.append_cons ..).symm
    exact foldlM_eq_error_iff.mpr ⟨before, line, _, reached, begins, read, fails⟩

end Reader

/-- A file has a faulty line, and this is the first one. -/
def FirstFault (key : ClipKey) (content : Bytes) (faulty : FaultyLine) : Prop :=
  readClip key content = .error faulty ∧ faulty.fault ≠ .missingVersion

/-- All lines are text, and each is blank or a comment. -/
def SaysNothing (content : Bytes) : Prop :=
  ∃ texts, (Delivery.whole content).lines.mapM decode? = some texts ∧ significant texts = []

/-- The files begin with the same lines. -/
def SameLines (count : Nat) (content other : Bytes) : Prop :=
  (Delivery.whole other).lines.take count = (Delivery.whole content).lines.take count

variable {key : ClipKey} {content more : Bytes} {faulty : FaultyLine}

theorem finished_eq_error_iff {reader : Reader} :
    reader.finished = .error faulty ↔
      reader.versionSeen = false ∧ faulty = ⟨max 1 reader.lineCount, .missingVersion⟩ := by
  unfold Reader.finished
  cases reader.versionSeen with
  | true => simp
  | false => simp [eq_comm]

theorem firstFault_iff :
    FirstFault key content faulty ↔
      (Reader.start key).readLines (Delivery.whole content).lines = .error faulty := by
  constructor
  · rintro ⟨failed, line⟩
    rcases bind_eq_error_iff.mp failed with here | ⟨reader, _, atEnd⟩
    · exact here
    · have missing := (finished_eq_error_iff.mp atEnd).2
      exact absurd (congrArg FaultyLine.fault missing) line
  · intro failed
    refine ⟨bind_eq_error_iff.mpr (.inl failed), fun missing => ?_⟩
    have own := (Reader.readLines_error failed).2.2.1
    rw [missing] at own
    cases own

theorem missingVersion_iff {line : Nat} :
    readClip key content = .error ⟨line, .missingVersion⟩ ↔
      SaysNothing content ∧ line = max 1 (Delivery.whole content).lines.length := by
  constructor
  · intro failed
    rcases bind_eq_error_iff.mp failed with onLine | ⟨reader, read, atEnd⟩
    · cases (Reader.readLines_error onLine).2.2.1
    · obtain ⟨unseen, same⟩ := finished_eq_error_iff.mp atEnd
      rw [Reader.lineCount_of_readLines_start read] at same
      obtain ⟨texts, decoded, folded⟩ := Reader.readLines_eq_ok_iff.mp read
      rw [Reader.foldlM_fed_start] at folded
      refine ⟨⟨texts, decoded, ?_⟩, congrArg FaultyLine.line same⟩
      cases said : significant texts with
      | nil => rfl
      | cons version rest =>
          simp only [said] at folded
          obtain ⟨_, _, rfl⟩ := map_eq_ok_iff.mp folded
          cases unseen
  · rintro ⟨⟨texts, decoded, nothing⟩, rfl⟩
    have folded := Reader.foldlM_fed_start key texts
    simp only [nothing] at folded
    have read := Reader.readLines_eq_ok_iff.mpr ⟨texts, decoded, folded⟩
    rw [← Reader.lineCount_of_readLines_start read]
    exact bind_eq_error_iff.mpr (.inr ⟨_, read, finished_eq_error_iff.mpr ⟨rfl, rfl⟩⟩)

section Interrupted

variable {reason : String}

theorem take_lines_interrupted {count : Nat} (delivered : count ≤ content.count newline) :
    (Delivery.interrupted content reason).lines.take count =
      (Delivery.whole (content ++ more)).lines.take count := by
  rw [← Delivery.take_lines_whole content more, List.take_take, Nat.min_eq_left delivered]

theorem readClip_interrupted_of_firstFault (first : FirstFault key (content ++ more) faulty)
    (delivered : faulty.line ≤ content.count newline) :
    (Delivery.interrupted content reason).readClip key = .error faulty := by
  have unchanged := (Reader.readLines_error (firstFault_iff.mp first)).2.2.2
  exact bind_eq_error_iff.mpr (.inl (unchanged _ (take_lines_interrupted delivered)))

theorem readClip_interrupted_of_no_firstFault
    (none : ∀ faulty, FirstFault key (content ++ more) faulty →
      content.count newline < faulty.line) :
    (Delivery.interrupted content reason).readClip key =
      .error ⟨1 + content.count newline, .readFailed reason⟩ := by
  have length := Delivery.length_lines_interrupted content reason
  cases read : (Reader.start key).readLines (Delivery.interrupted content reason).lines with
  | error faulty =>
      -- A faulty line among those delivered would be one of the whole file.
      obtain ⟨_, delivered, _, unchanged⟩ := Reader.readLines_error read
      rw [length] at delivered
      have same : (Delivery.interrupted content reason).lines.take faulty.line =
          (Delivery.whole (content ++ more)).lines.take faulty.line :=
        take_lines_interrupted delivered
      have undelivered := none faulty (firstFault_iff.mpr (unchanged _ same.symm))
      exact absurd undelivered (Nat.not_lt.mpr delivered)
  | ok reader =>
      refine bind_eq_error_iff.mpr (.inr ⟨reader, read, ?_⟩)
      rw [Delivery.conclude, Reader.lineCount_of_readLines_start read, length, Nat.add_comm]

theorem readClip_interrupted_ne_ok (clip : Clip) :
    (Delivery.interrupted content reason).readClip key ≠ .ok clip := by
  intro read
  obtain ⟨_, _, concluded⟩ := bind_eq_ok_iff.mp read
  cases concluded

end Interrupted

/-- The first faulty line of a file decides with those before it; without one, a file
fails exactly if it says nothing.  A source that breaks off gives no clip: it fails at
the first faulty line that it has delivered up to its newline, else where it breaks off. -/
theorem first_fault_decides (key : ClipKey) (content : Bytes) :
    (∀ faulty, FirstFault key content faulty →
      1 ≤ faulty.line ∧ faulty.line ≤ (Delivery.whole content).lines.length ∧
        ∀ other, SameLines faulty.line content other →
          readClip key other = .error faulty) ∧
    (∀ line, readClip key content = .error ⟨line, .missingVersion⟩ ↔
      SaysNothing content ∧ line = max 1 (Delivery.whole content).lines.length) ∧
    ∀ more reason,
      (∀ clip, (Delivery.interrupted content reason).readClip key ≠ .ok clip) ∧
      (∀ faulty, FirstFault key (content ++ more) faulty →
        faulty.line ≤ content.count newline →
          (Delivery.interrupted content reason).readClip key = .error faulty) ∧
      ((∀ faulty, FirstFault key (content ++ more) faulty →
        content.count newline < faulty.line) →
          (Delivery.interrupted content reason).readClip key =
            .error ⟨1 + content.count newline, .readFailed reason⟩) := by
  refine ⟨fun faulty first => ?_, fun line => missingVersion_iff, fun more reason =>
    ⟨readClip_interrupted_ne_ok, fun faulty => readClip_interrupted_of_firstFault,
      readClip_interrupted_of_no_firstFault⟩⟩
  obtain ⟨begins, ends, _, unchanged⟩ := Reader.readLines_error (firstFault_iff.mp first)
  exact ⟨begins, ends, fun other same => bind_eq_error_iff.mpr (.inl (unchanged _ same))⟩

/-- A file whose third line is faulty, its source breaking off within or after that line,
and a file that is a comment. -/
theorem first_fault_decides_at_unknown_token :
    let key : ClipKey := ⟨"fall", "guard"⟩
    let begun := "1\nBODY\n.5s ".toUTF8.data.toList
    let more := "leap\n".toUTF8.data.toList
    let faulty : FaultyLine := ⟨3, .unknownToken "leap"⟩
    FirstFault key (begun ++ more) faulty ∧
      (∀ other, SameLines 3 (begun ++ more) other → readClip key other = .error faulty) ∧
      (Delivery.interrupted (begun ++ more) "gone").readClip key = .error faulty ∧
      (Delivery.interrupted begun "gone").readClip key = .error ⟨3, .readFailed "gone"⟩ ∧
      SaysNothing "# none\n".toUTF8.data.toList := by
  intro key begun more faulty
  have computed : readClip key (begun ++ more) = .error faulty := by decide +kernel
  have first : FirstFault key (begun ++ more) faulty := ⟨computed, by decide⟩
  have whole := first_fault_decides key (begun ++ more)
  have delivered := (whole.2.2 [] "gone").2.1 faulty (by rwa [List.append_nil]) (by decide +kernel)
  have beforeIt : ∀ other, FirstFault key (begun ++ more) other →
      begun.count newline < other.line := by
    intro other otherFirst
    cases computed.symm.trans otherFirst.1
    decide +kernel
  have broken := ((first_fault_decides key begun).2.2 more "gone").2.2 beforeIt
  have comment := (first_fault_decides key "# none\n".toUTF8.data.toList).2.1 1
  exact ⟨first, (whole.1 faulty first).2.2, delivered, broken,
    (comment.mp (by decide +kernel)).1⟩

end ClipFile

end LimbAnimation
