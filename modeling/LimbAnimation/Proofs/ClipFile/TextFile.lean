import LimbAnimation.Proofs.ClipFile.FirstFault

/-!
# Text files

A text file is given by its lines.  Its content is their text in UTF-8, each line with a
newline after it, which the last one can do without.  The reader finds the same lines in
the content again.
-/

namespace LimbAnimation

namespace ClipFile

def utf8 (text : List Char) : Bytes := text.flatMap String.utf8EncodeChar

theorem decode?_utf8 (text : List Char) : decode? (utf8 text) = some text := by
  have bytes : (⟨(utf8 text).toArray⟩ : ByteArray) = text.utf8Encode := by
    rw [List.utf8Encode, ← utf8]
    ext1
    simp
  have valid : text.utf8Encode.IsValidUTF8 := .intro text rfl
  rw [decode?, bytes, String.fromUTF8?, dif_pos valid, Option.map_some]
  exact congrArg some String.toList_ofList

theorem newline_ne_ofNat {code : Nat} (other : code ≠ 10) (byte : code < 256) :
    newline ≠ UInt8.ofNat code := by
  intro same
  have codes := congrArg UInt8.toNat same
  rw [UInt8.toNat_ofNat_of_lt' byte] at codes
  exact other codes.symm

theorem newline_not_mem_utf8EncodeChar {character : Char} (other : character ≠ '\n') :
    newline ∉ String.utf8EncodeChar character := by
  have code : character.val.toNat ≠ 10 := fun same =>
    other (Char.ext (UInt32.toNat_inj.mp same))
  dsimp only [String.utf8EncodeChar]
  split
  next one =>
      rw [List.mem_singleton]
      exact newline_ne_ofNat code (by omega)
  next =>
      -- The bytes of a longer code are all above those of ASCII.
      split
      next two =>
          simp only [List.mem_cons, List.not_mem_nil, or_false, not_or]
          exact ⟨newline_ne_ofNat (by omega) (by omega), newline_ne_ofNat (by omega) (by omega)⟩
      next =>
          split
          next three =>
              simp only [List.mem_cons, List.not_mem_nil, or_false, not_or]
              exact ⟨newline_ne_ofNat (by omega) (by omega), newline_ne_ofNat (by omega) (by omega),
                newline_ne_ofNat (by omega) (by omega)⟩
          next four =>
              simp only [List.mem_cons, List.not_mem_nil, or_false, not_or]
              exact ⟨newline_ne_ofNat (by omega) (by omega), newline_ne_ofNat (by omega) (by omega),
                newline_ne_ofNat (by omega) (by omega), newline_ne_ofNat (by omega) (by omega)⟩

theorem newline_not_mem_utf8 {text : List Char} (none : '\n' ∉ text) : newline ∉ utf8 text := by
  intro member
  obtain ⟨character, inText, inBytes⟩ := List.mem_flatMap.mp member
  exact newline_not_mem_utf8EncodeChar (fun same => none (same ▸ inText)) inBytes

theorem utf8_ne_nil {text : List Char} (some : text ≠ []) : utf8 text ≠ [] := by
  intro none
  apply some
  have decoded := decode?_utf8 text
  rw [none, show decode? [] = Option.some [] from decode?_utf8 []] at decoded
  exact (Option.some.inj decoded).symm

/-- A file of text, given by its lines. -/
structure TextFile where
  lines : List (List Char)
  noNewline : ∀ line ∈ lines, '\n' ∉ line
  /-- Whether a newline ends the last line as well. -/
  ended : Bool
  /-- An empty line is one only by its newline. -/
  proper : ended = false → lines.getLast? ≠ some []

namespace TextFile

/-- The lines in UTF-8, each with its newline. -/
def endedLines (lines : List (List Char)) : Bytes :=
  lines.flatMap fun line => utf8 line ++ [newline]

def content (file : TextFile) : Bytes :=
  if file.ended then endedLines file.lines else (endedLines file.lines).dropLast

theorem pieces_endedLines_append {lines : List (List Char)}
    (noNewline : ∀ line ∈ lines, '\n' ∉ line) {rest : Bytes} (none : newline ∉ rest) :
    Text.pieces (· == newline) (endedLines lines ++ rest) = lines.map utf8 ++ [rest] := by
  induction lines with
  | nil =>
      apply Text.pieces_of_none
      intro byte member
      exact beq_eq_false_iff_ne.mpr fun same => none (same ▸ member)
  | cons line lines ih =>
      rw [List.forall_mem_cons] at noNewline
      have apart : ∀ byte ∈ utf8 line, (byte == newline) = false := fun byte member =>
        beq_eq_false_iff_ne.mpr fun same => newline_not_mem_utf8 noNewline.1 (same ▸ member)
      have cut := Text.pieces_append_cons apart (beq_self_eq_true newline)
        (endedLines lines ++ rest)
      rw [ih noNewline.2] at cut
      simpa [endedLines] using cut

theorem lines_of_content (file : TextFile) :
    (Delivery.whole file.content).lines = file.lines.map utf8 := by
  obtain ⟨lines, noNewline, ended, proper⟩ := file
  cases ended with
  | true =>
      have cut := pieces_endedLines_append noNewline List.not_mem_nil
      rw [List.append_nil] at cut
      simp [Delivery.lines, content, cut]
  | false =>
      rcases List.eq_nil_or_concat' lines with rfl | ⟨before, last, rfl⟩
      · rfl
      · have whole :
            endedLines (before ++ [last]) = endedLines before ++ utf8 last ++ [newline] := by
          simp [endedLines]
        have cut := pieces_endedLines_append
          (fun line (member : line ∈ before) => noNewline line (List.mem_append_left _ member))
          (newline_not_mem_utf8 (noNewline last (by simp)))
        have full : utf8 last ≠ [] := utf8_ne_nil (by simpa using proper rfl)
        simp [Delivery.lines, content, whole, cut, full]

end TextFile

end ClipFile

end LimbAnimation
