import LimbAnimation.Proofs.ClipFile.Sheet
import LimbAnimation.Proofs.Outcome

/-!
# From bytes to lines

Reading a file is entering, one after the other, what its significant lines say.
The number of the line matters for the first line and for faults only.
-/

namespace LimbAnimation.ClipFile

theorem ofWord?_eq_some_iff {word : List Char} {directive : Directive} :
    Directive.ofWord? word = some directive ↔ word = directive.word.toList := by
  constructor
  · intro found
    have matched := List.find?_some found
    exact (of_decide_eq_true matched).symm
  · rintro rfl
    cases directive <;> decide

theorem header?_eq_some_iff {text : List Char} {header : Header} :
    [Header.body, .head, .hand].find? (·.word.toList = text) = some header ↔
      text = header.word.toList := by
  constructor
  · intro found
    have matched := List.find?_some found
    simpa [eq_comm] using matched
  · rintro rfl
    cases header <;> decide

theorem switch?_eq_some_iff {text : List Char} {switch : Switch} :
    [Switch.smooth, .relative].find? (·.word.toList = text) = some switch ↔
      text = switch.word.toList := by
  constructor
  · intro found
    have matched := List.find?_some found
    simpa [eq_comm] using matched
  · rintro rfl
    cases switch <;> decide

theorem ofWord_eq_keyframe {text : List Char}
    (noHeader : ∀ header : Header, text ≠ header.word.toList)
    (noSwitch : ∀ switch : Switch, text ≠ switch.word.toList) (noAim : text ≠ "aim".toList) :
    Line.ofWord text = .keyframe text := by
  unfold Line.ofWord
  split
  next header found => exact absurd (header?_eq_some_iff.mp found) (noHeader header)
  next =>
      split
      next switch found => exact absurd (switch?_eq_some_iff.mp found) (noSwitch switch)
      next => rw [if_neg noAim]

/-- A text that begins with no directive says what its one word says, or it is a
keyframe. -/
theorem spells_ofWord {text : List Char}
    (noDirective : ∀ (directive : Directive) more,
      Text.words text ≠ directive.word.toList :: more) :
    Spells text (Line.ofWord text) := by
  unfold Line.ofWord
  split
  next header found =>
      rw [header?_eq_some_iff.mp found]
      exact .header header
  next noHeader =>
      split
      next switch found =>
          rw [switch?_eq_some_iff.mp found]
          exact .switch switch
      next noSwitch =>
          split
          next same =>
              rw [same]
              exact .aim
          next noAim =>
              refine .keyframe noDirective ?_ ?_ noAim
              · intro header same
                exact noHeader header (header?_eq_some_iff.mpr same)
              · intro switch same
                exact noSwitch switch (switch?_eq_some_iff.mpr same)

/-- Every text says exactly one thing, and that is what the reader takes it for. -/
theorem spells_iff {text : List Char} {line : Line} :
    Spells text line ↔ Line.ofText text = line := by
  constructor
  · intro spells
    cases spells with
    | directive directive words =>
        simp [Line.ofText, words, ofWord?_eq_some_iff.mpr rfl]
    | header header => cases header <;> rfl
    | switch switch => cases switch <;> rfl
    | aim => rfl
    | keyframe noDirective noHeader noSwitch noAim =>
        have noWord : (Text.words text).head?.bind Directive.ofWord? = none := by
          apply Option.eq_none_iff_forall_ne_some.mpr
          intro directive found
          obtain ⟨word, first, named⟩ := Option.bind_eq_some_iff.mp found
          obtain ⟨more, cut⟩ := List.head?_eq_some_iff.mp first
          exact noDirective directive more (ofWord?_eq_some_iff.mp named ▸ cut)
        simp only [Line.ofText, noWord]
        exact ofWord_eq_keyframe noHeader noSwitch noAim
  · rintro rfl
    simp only [Line.ofText]
    split
    next directive found =>
        obtain ⟨word, first, named⟩ := Option.bind_eq_some_iff.mp found
        obtain ⟨more, cut⟩ := List.head?_eq_some_iff.mp first
        rw [cut]
        exact .directive directive (ofWord?_eq_some_iff.mp named ▸ cut)
    next noWord =>
        apply spells_ofWord
        intro directive more cut
        simp [cut, ofWord?_eq_some_iff.mpr rfl] at noWord

theorem spelled_iff {texts : List (List Char)} {lines : List Line} :
    List.Forall₂ Spells texts lines ↔ texts.map Line.ofText = lines := by
  constructor
  · intro spelled
    induction spelled with
    | nil => rfl
    | cons first _ ih => rw [List.map_cons, spells_iff.mp first, ih]
  · rintro rfl
    induction texts with
    | nil => exact .nil
    | cons text rest ih => exact .cons (spells_iff.mpr rfl) ih

namespace Reader

/-- The reader at another place in the file. -/
def placed (count : Nat) (seen : Bool) (reader : Reader) : Reader :=
  { reader with lineCount := count, versionSeen := seen }

/-- The reader after lines that say something. -/
def follow (reader : Reader) (lines : List Line) : Except Fault Reader :=
  lines.foldlM entered reader

theorem follow_cons (reader : Reader) (line : Line) (rest : List Line) :
    reader.follow (line :: rest) = reader.entered line >>= fun next => next.follow rest :=
  List.foldlM_cons

theorem follow_append (reader : Reader) (first later : List Line) :
    reader.follow (first ++ later) = reader.follow first >>= fun next => next.follow later :=
  List.foldlM_append

theorem closed_placed (reader : Reader) (count : Nat) (seen : Bool) :
    (reader.placed count seen).closed = reader.closed.placed count seen := by
  obtain ⟨key, lineCount, versionSeen, settings, block, body, head, hands, restrictions, smooth,
    relativeHands⟩ := reader
  cases block with
  | none => rfl
  | some block =>
      obtain ⟨limb, followsAim, keyframes⟩ := block
      cases limb <;> rfl

theorem keyframe_placed (reader : Reader) (count : Nat) (seen : Bool) (text : List Char) :
    (reader.placed count seen).keyframe text = (reader.keyframe text).map (placed count seen) := by
  obtain ⟨key, lineCount, versionSeen, settings, block, body, head, hands, restrictions, smooth,
    relativeHands⟩ := reader
  cases block with
  | none => rfl
  | some block =>
      simp only [keyframe, placed]
      cases Draft.ofLine settings (isHand block.limb) text with
      | error fault => rfl
      | ok draft =>
          simp only [bind, Except.bind]
          cases draft.keyframe settings with
          | error fault => rfl
          | ok keyframe => rfl

/-- What a line says is entered in the same way wherever it stands. -/
theorem entered_placed (reader : Reader) (count : Nat) (seen : Bool) (line : Line) :
    (reader.placed count seen).entered line =
      (reader.entered line).map (placed count seen) := by
  cases line with
  | header header =>
      simp only [entered, opened, closed_placed]
      cases header with
      | body => cases found : reader.closed.body <;> simp [placed, found, Except.map]
      | head => cases found : reader.closed.head <;> simp [placed, found, Except.map]
      | hand => rfl
  | directive directive payload =>
      cases inside : reader.block.isSome with
      | true => simp [entered, placed, inside, Except.map]
      | false =>
          simp only [entered, placed, inside]
          cases directed reader.settings directive payload <;> rfl
  | switch switch =>
      cases inside : reader.block.isSome with
      | true => simp [entered, placed, inside, Except.map]
      | false => cases switch <;> simp [entered, placed, inside, Except.map]
  | aim => cases inside : reader.block <;> simp [entered, placed, inside, Except.map]
  | keyframe text => exact keyframe_placed reader count seen text

theorem fed_placed (reader : Reader) (count : Nat) (seen : Bool) (raw : List Char) :
    (reader.placed count seen).fed raw =
      let text := lineText (count == 0) raw
      if isSkipped text then .ok (reader.placed (count + 1) seen)
      else if seen then (reader.entered (.ofText text)).map (placed (count + 1) true)
      else .ok (reader.placed (count + 1) true) := by
  have next := entered_placed reader (count + 1) seen (.ofText (lineText (count == 0) raw))
  cases seen with
  | true => simp [fed, placed, ← next]
  | false => simp [fed, placed]

/-- The texts after the first line that are neither blank nor comments. -/
def laterSignificant (texts : List (List Char)) : List (List Char) :=
  (texts.map (lineText false)).filter fun text => !isSkipped text

/-- After the version line, reading texts is following what they say. -/
theorem foldlM_fed_seen (reader : Reader) (count : Nat) (texts : List (List Char)) :
    texts.foldlM fed (reader.placed (count + 1) true) =
      (reader.follow ((laterSignificant texts).map Line.ofText)).map
        (placed (count + 1 + texts.length) true) := by
  induction texts generalizing reader count with
  | nil => rfl
  | cons raw rest ih =>
      have length : count + 1 + (raw :: rest).length = count + 1 + 1 + rest.length := by
        simp only [List.length_cons]
        omega
      rw [List.foldlM_cons, fed_placed, length]
      cases skipped : isSkipped (lineText false raw) with
      | true => simpa [laterSignificant, skipped] using ih reader (count + 1)
      | false =>
          have here : laterSignificant (raw :: rest) =
              lineText false raw :: laterSignificant rest := by
            simp [laterSignificant, skipped]
          rw [here, List.map_cons, follow_cons]
          cases entry : reader.entered (.ofText (lineText false raw)) with
          | error fault => simp [skipped, entry, Except.map]
          | ok next => simpa [skipped, entry, Except.map] using ih next (count + 1)

/-- Before the version line, the first significant text is the version. -/
theorem foldlM_fed_unseen (reader : Reader) (count : Nat) (texts : List (List Char)) :
    texts.foldlM fed (reader.placed (count + 1) false) =
      match laterSignificant texts with
      | [] => .ok (reader.placed (count + 1 + texts.length) false)
      | _ :: rest => (reader.follow (rest.map Line.ofText)).map
          (placed (count + 1 + texts.length) true) := by
  induction texts generalizing count with
  | nil => rfl
  | cons raw rest ih =>
      have length : count + 1 + (raw :: rest).length = count + 1 + 1 + rest.length := by
        simp only [List.length_cons]
        omega
      rw [List.foldlM_cons, fed_placed, length]
      cases skipped : isSkipped (lineText false raw) with
      | true => simpa [laterSignificant, skipped] using ih (count + 1)
      | false => simpa [laterSignificant, skipped] using foldlM_fed_seen reader (count + 1) rest

theorem start_placed (key : ClipKey) : (start key).placed 0 false = start key := rfl

theorem foldlM_fed_start (key : ClipKey) (texts : List (List Char)) :
    texts.foldlM fed (start key) =
      match significant texts with
      | [] => .ok ((start key).placed texts.length false)
      | _ :: rest => ((start key).follow (rest.map Line.ofText)).map
          (placed texts.length true) := by
  cases texts with
  | nil => rfl
  | cons raw rest =>
      have first := fed_placed (start key) 0 false raw
      rw [start_placed] at first
      have length : (raw :: rest).length = 0 + 1 + rest.length := by
        simp only [List.length_cons]
        omega
      rw [List.foldlM_cons, first, length]
      cases skipped : isSkipped (lineText true raw) with
      | true =>
          have here : significant (raw :: rest) = laterSignificant rest := by
            simp [significant, laterSignificant, skipped]
          simpa [here, skipped] using foldlM_fed_unseen (start key) 0 rest
      | false =>
          have here : significant (raw :: rest) =
              lineText true raw :: laterSignificant rest := by
            simp [significant, laterSignificant, skipped]
          simpa [here, skipped] using foldlM_fed_seen (start key) 0 rest

theorem readLine_eq_ok_iff {reader next : Reader} {line : Bytes} :
    reader.readLine line = .ok next ↔
      ∃ text, decode? line = some text ∧ reader.fed text = .ok next := by
  rw [readLine, mapError_eq_ok_iff]
  cases decode? line <;> simp

theorem readLines_cons (reader : Reader) (line : Bytes) (rest : List Bytes) :
    reader.readLines (line :: rest) = reader.readLine line >>= fun next => next.readLines rest :=
  List.foldlM_cons

theorem readLines_append (reader : Reader) (first later : List Bytes) :
    reader.readLines (first ++ later) =
      reader.readLines first >>= fun next => next.readLines later :=
  List.foldlM_append

theorem readLines_eq_ok_iff {reader next : Reader} {lines : List Bytes} :
    reader.readLines lines = .ok next ↔
      ∃ texts, lines.mapM decode? = some texts ∧ texts.foldlM fed reader = .ok next := by
  induction lines generalizing reader with
  | nil =>
      constructor
      · intro read
        cases read
        exact ⟨[], rfl, rfl⟩
      · intro given
        obtain ⟨_, ⟨⟩, folded⟩ := given
        cases folded
        rfl
  | cons line rest ih =>
      rw [readLines_cons, bind_eq_ok_iff, List.mapM_cons]
      constructor
      · intro given
        obtain ⟨middle, first, later⟩ := given
        obtain ⟨text, decoded, fed⟩ := readLine_eq_ok_iff.mp first
        obtain ⟨texts, others, folded⟩ := ih.mp later
        exact ⟨text :: texts, by simp [decoded, others], by simp [fed, folded]⟩
      · intro given
        obtain ⟨all, decoded, folded⟩ := given
        obtain ⟨text, first, texts, others, rfl⟩ := by
          simpa [Option.bind_eq_some_iff] using decoded
        rw [List.foldlM_cons, bind_eq_ok_iff] at folded
        obtain ⟨middle, fed, later⟩ := folded
        exact ⟨middle, readLine_eq_ok_iff.mpr ⟨text, first, fed⟩, ih.mpr ⟨texts, others, later⟩⟩

theorem finished_placed_eq_ok_iff {reader : Reader} {count : Nat} {seen : Bool} {clip : Clip} :
    (reader.placed count seen).finished = .ok clip ↔ seen = true ∧ reader.closed.clip = clip := by
  cases seen with
  | false => simp [finished, placed]
  | true =>
      have same : (reader.placed count true).closed.clip = reader.closed.clip := by
        rw [closed_placed]
        rfl
      simp [finished, show (reader.placed count true).versionSeen = true from rfl, same]

end Reader

/-- A file gives a clip when all its lines are text, one of them is a version line,
and what the others say can be followed. -/
theorem readClip_eq_ok_iff_follow {key : ClipKey} {content : Bytes} {clip : Clip} :
    readClip key content = .ok clip ↔
      ∃ texts version rest last,
        (Delivery.whole content).lines.mapM decode? = some texts ∧
          significant texts = version :: rest ∧
          (Reader.start key).follow (rest.map Line.ofText) = .ok last ∧
          last.closed.clip = clip := by
  have parts : readClip key content = .ok clip ↔
      ∃ reader, (Reader.start key).readLines (Delivery.whole content).lines = .ok reader ∧
        reader.finished = .ok clip := bind_eq_ok_iff
  rw [parts]
  constructor
  · intro given
    obtain ⟨reader, read, finished⟩ := given
    obtain ⟨texts, decoded, folded⟩ := Reader.readLines_eq_ok_iff.mp read
    rw [Reader.foldlM_fed_start] at folded
    cases cut : significant texts with
    | nil =>
        simp only [cut, Except.ok.injEq] at folded
        subst folded
        cases (Reader.finished_placed_eq_ok_iff.mp finished).1
    | cons version rest =>
        simp only [cut] at folded
        obtain ⟨last, followed, rfl⟩ := map_eq_ok_iff.mp folded
        exact ⟨texts, version, rest, last, decoded, cut, followed,
          (Reader.finished_placed_eq_ok_iff.mp finished).2⟩
  · intro given
    obtain ⟨texts, version, rest, last, decoded, cut, followed, closed⟩ := given
    refine ⟨last.placed texts.length true, Reader.readLines_eq_ok_iff.mpr ⟨texts, decoded, ?_⟩,
      Reader.finished_placed_eq_ok_iff.mpr ⟨rfl, closed⟩⟩
    rw [Reader.foldlM_fed_start, cut]
    exact map_eq_ok_iff.mpr ⟨last, followed, rfl⟩

end LimbAnimation.ClipFile
