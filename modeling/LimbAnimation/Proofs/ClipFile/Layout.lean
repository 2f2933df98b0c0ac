import LimbAnimation.Proofs.ClipFile.OneSheet

/-!
# The layout of a file

The lines of a file, as they stand: those before the first header, and then block by block,
with blank lines and comments.  A file is written after a sheet when the texts before the
first header spell the settings and each block spells one passage.
-/

namespace LimbAnimation.ClipFile

/-- The header that a text is, if it is one. -/
def headerOf? (text : List Char) : Option Header :=
  [Header.body, .head, .hand].find? (·.word.toList = text)

/-- The header in the first line of a block. -/
def blockHeader? (block : List (List Char)) : Option Header :=
  block.head?.bind fun line => headerOf? (lineText false line)

/-- A line with a header, and lines after it up to the next one. -/
structure IsBlock (block : List (List Char)) : Prop where
  headed : (blockHeader? block).isSome = true
  single : ∀ line ∈ block.tail, headerOf? (lineText false line) = none

instance : DecidablePred IsBlock := fun _ =>
  decidable_of_iff (_ ∧ _)
    ⟨fun ⟨headed, single⟩ => ⟨headed, single⟩, fun ⟨headed, single⟩ => ⟨headed, single⟩⟩

structure Layout where
  /-- The lines before the first header, the version line among them. -/
  opening : List (List Char)
  /-- The lines of each block. -/
  blocks : List (List (List Char))

namespace Layout

def lines (layout : Layout) : List (List Char) := layout.opening ++ layout.blocks.flatten

/-- What is said between the version line and the first header. -/
def preamble (layout : Layout) : List (List Char) := (significant layout.opening).tail

structure Proper (layout : Layout) : Prop where
  version : significant layout.opening ≠ []
  preamble : ∀ text ∈ layout.preamble, headerOf? text = none
  blocks : ∀ block ∈ layout.blocks, IsBlock block

instance : DecidablePred Proper := fun _ =>
  decidable_of_iff (_ ∧ _ ∧ _)
    ⟨fun ⟨version, preamble, blocks⟩ => ⟨version, preamble, blocks⟩,
      fun ⟨version, preamble, blocks⟩ => ⟨version, preamble, blocks⟩⟩

/-- A file with the lines of a layout. -/
def IsOf (layout : Layout) (content : Bytes) : Prop :=
  (Delivery.whole content).lines.mapM decode? = some layout.lines

instance (layout : Layout) (content : Bytes) : Decidable (layout.IsOf content) :=
  inferInstanceAs (Decidable (_ = _))

end Layout

open Reader (laterSignificant)

theorem significant_append {front : List (List Char)} (some : significant front ≠ [])
    (behind : List (List Char)) :
    significant (front ++ behind) = significant front ++ laterSignificant behind := by
  cases front with
  | nil => exact absurd rfl some
  | cons first rest =>
      rw [List.cons_append, significant, significant, laterSignificant, List.map_append,
        ← List.cons_append, List.filter_append]

theorem laterSignificant_append (front behind : List (List Char)) :
    laterSignificant (front ++ behind) = laterSignificant front ++ laterSignificant behind := by
  simp [laterSignificant]

theorem laterSignificant_flatten (blocks : List (List (List Char))) :
    laterSignificant blocks.flatten = (blocks.map laterSignificant).flatten := by
  induction blocks with
  | nil => rfl
  | cons block rest ih =>
      rw [List.flatten_cons, laterSignificant_append, ih, List.map_cons, List.flatten_cons]

theorem headerOf?_eq_some_iff {text : List Char} {header : Header} :
    headerOf? text = some header ↔ text = header.word.toList := header?_eq_some_iff

theorem ofText_eq_header_iff {text : List Char} {header : Header} :
    Line.ofText text = .header header ↔ headerOf? text = some header := by
  rw [headerOf?_eq_some_iff]
  constructor
  · intro same
    have spells := spells_iff.mpr same
    cases spells
    rfl
  · rintro rfl
    exact spells_iff.mp (.header header)

theorem ofText_isPlain {text : List Char} (noHeader : headerOf? text = none) :
    (Line.ofText text).IsPlain := by
  intro header same
  cases noHeader.symm.trans (ofText_eq_header_iff.mp same)

/-- What a block says. -/
def blockLines (block : List (List Char)) : List Line := (laterSignificant block).map Line.ofText

theorem blockLines_eq_cons {block : List (List Char)} {header : Header}
    (headed : blockHeader? block = some header) :
    blockLines block = .header header :: blockLines block.tail := by
  obtain ⟨first, isFirst, spelled⟩ := Option.bind_eq_some_iff.mp headed
  obtain ⟨rest, rfl⟩ := List.head?_eq_some_iff.mp isFirst
  have said : isSkipped (lineText false first) = false := by
    rw [headerOf?_eq_some_iff.mp spelled]
    cases header <;> decide
  simp [blockLines, laterSignificant, said, ofText_eq_header_iff.mpr spelled]

theorem IsBlock.isGroup {block : List (List Char)} (isBlock : IsBlock block) :
    IsGroup (blockLines block) := by
  obtain ⟨header, headed⟩ := Option.isSome_iff_exists.mp isBlock.headed
  rw [blockLines_eq_cons headed]
  refine .headed header (List.forall_mem_map.mpr ?_)
  intro text member
  obtain ⟨line, inBlock, rfl⟩ := List.mem_map.mp (List.mem_filter.mp member).1
  exact ofText_isPlain (isBlock.single line inBlock)

/-- A block that is the spelling of a passage. -/
def Renders (block : List (List Char)) (passage : Passage) : Prop :=
  List.Forall₂ Spells (laterSignificant block) passage.lines

theorem renders_iff {block : List (List Char)} {passage : Passage} :
    Renders block passage ↔ blockLines block = passage.lines := spelled_iff

theorem renders_all_iff {blocks : List (List (List Char))} {passages : List Passage} :
    List.Forall₂ Renders blocks passages ↔
      blocks.map blockLines = passages.map Passage.lines := by
  rw [← List.forall₂_eq_eq_eq, List.forall₂_map_left_iff, List.forall₂_map_right_iff]
  constructor
  · intro renders
    exact renders.imp fun _ _ => renders_iff.mp
  · intro same
    exact same.imp fun _ _ => renders_iff.mpr

/-- A block spells one passage at most. -/
theorem Renders.unique {block : List (List Char)} {passage passage' : Passage}
    (renders : Renders block passage) (renders' : Renders block passage') : passage = passage' :=
  Passage.lines_injective ((renders_iff.mp renders).symm.trans (renders_iff.mp renders'))

theorem Renders.header {block : List (List Char)} {passage : Passage} {header : Header}
    (renders : Renders block passage) (headed : blockHeader? block = some header) :
    passage.header = header := by
  have same := (blockLines_eq_cons headed).symm.trans (renders_iff.mp renders)
  exact (Line.header.inj (List.cons.inj same).1).symm

variable {layout : Layout} {content : Bytes} {sheet : Sheet}

theorem Layout.significant_lines (proper : layout.Proper) :
    ∃ version, significant layout.lines =
      version :: (layout.preamble ++ (layout.blocks.map laterSignificant).flatten) := by
  obtain ⟨version, preamble, cut⟩ := List.exists_cons_of_ne_nil proper.version
  refine ⟨version, ?_⟩
  rw [lines, significant_append proper.version, laterSignificant_flatten, Layout.preamble, cut]
  rfl

/-- A file is written after a sheet part by part. -/
theorem Layout.IsOf.written_iff (isOf : layout.IsOf content) (proper : layout.Proper) :
    sheet.Written content ↔
      List.Forall₂ Spells layout.preamble (sheet.settings.map Setting.line) ∧
        List.Forall₂ Renders layout.blocks sheet.passages := by
  obtain ⟨version, cut⟩ := Layout.significant_lines proper
  have said : (layout.preamble ++ (layout.blocks.map laterSignificant).flatten).map Line.ofText =
      layout.preamble.map Line.ofText ++ (layout.blocks.map blockLines).flatten := by
    rw [List.map_append, List.map_flatten, List.map_map]
    rfl
  have asked : sheet.lines =
      sheet.settings.map Setting.line ++ (sheet.passages.map Passage.lines).flatten := by
    rw [Sheet.lines, List.flatMap_def]
  rw [renders_all_iff, spelled_iff]
  constructor
  · intro written
    obtain ⟨texts, version', rest, decoded, cut', spelled⟩ := written
    obtain rfl := Option.some.inj (isOf.symm.trans decoded)
    obtain ⟨rfl, rfl⟩ := List.cons.inj (cut.symm.trans cut')
    have same := spelled_iff.mp spelled
    rw [said, asked] at same
    exact plain_append_groups_inj
      (List.forall_mem_map.mpr fun text member => ofText_isPlain (proper.preamble text member))
      sheet.settings_isPlain
      (List.forall_mem_map.mpr fun block member => (proper.blocks block member).isGroup)
      sheet.passages_isGroup same
  · intro given
    obtain ⟨preamble, blocks⟩ := given
    refine ⟨layout.lines, version, _, isOf, cut, spelled_iff.mpr ?_⟩
    rw [said, asked, preamble, blocks]

section Existence

variable {lines : List (List Char)}

theorem exists_blocks (lines : List (List Char)) :
    ∃ (front : List (List Char)) (blocks : List (List (List Char))),
      lines = front ++ blocks.flatten ∧
        (∀ line ∈ front, headerOf? (lineText false line) = none) ∧
          ∀ block ∈ blocks, IsBlock block := by
  induction lines with
  | nil => exact ⟨[], [], rfl, by simp, by simp⟩
  | cons line rest ih =>
      obtain ⟨front, blocks, rfl, plain, areBlocks⟩ := ih
      cases header : headerOf? (lineText false line) with
      | none =>
          exact ⟨line :: front, blocks, rfl, List.forall_mem_cons.mpr ⟨header, plain⟩, areBlocks⟩
      | some found =>
          have here : IsBlock (line :: front) := ⟨Option.isSome_of_eq_some header, plain⟩
          exact ⟨[], (line :: front) :: blocks, by simp, by simp,
            List.forall_mem_cons.mpr ⟨here, areBlocks⟩⟩

theorem exists_first_laterSignificant (present : laterSignificant lines ≠ []) :
    ∃ before first behind text, lines = before ++ first :: behind ∧
      laterSignificant (before ++ [first]) = [text] := by
  induction lines with
  | nil => exact absurd rfl present
  | cons line rest ih =>
      cases skipped : isSkipped (lineText false line) with
      | false =>
          exact ⟨[], line, rest, lineText false line, rfl, by simp [laterSignificant, skipped]⟩
      | true =>
          have later : laterSignificant rest ≠ [] := by
            simpa [laterSignificant, skipped] using present
          obtain ⟨before, first, behind, text, rfl, cut⟩ := ih later
          refine ⟨line :: before, first, behind, text, rfl, ?_⟩
          rw [← cut]
          simp [laterSignificant, skipped]

theorem exists_version (present : significant lines ≠ []) :
    ∃ before version behind text, lines = before ++ version :: behind ∧
      significant (before ++ [version]) = [text] := by
  cases lines with
  | nil => exact absurd rfl present
  | cons line rest =>
      cases skipped : isSkipped (lineText true line) with
      | false => exact ⟨[], line, rest, lineText true line, rfl, by simp [significant, skipped]⟩
      | true =>
          have here : ∀ rest, significant (line :: rest) = laterSignificant rest := by
            intro rest
            simp [significant, laterSignificant, skipped]
          rw [here] at present
          obtain ⟨before, first, behind, text, rfl, cut⟩ := exists_first_laterSignificant present
          exact ⟨line :: before, first, behind, text, rfl, (here _).trans cut⟩

/-- A file of text with a version line has a layout. -/
theorem Layout.exists_isOf (decoded : (Delivery.whole content).lines.mapM decode? = some lines)
    (present : significant lines ≠ []) :
    ∃ layout : Layout, layout.IsOf content ∧ layout.Proper := by
  obtain ⟨before, version, behind, text, rfl, cut⟩ := exists_version present
  obtain ⟨front, blocks, rfl, plain, areBlocks⟩ := exists_blocks behind
  have opening : significant (before ++ version :: front) = text :: laterSignificant front := by
    rw [List.append_cons, significant_append (by simp [cut]), cut, List.singleton_append]
  let layout : Layout := ⟨before ++ version :: front, blocks⟩
  have isOf : layout.IsOf content := by
    rw [IsOf, decoded, lines, List.append_assoc, List.cons_append]
  refine ⟨layout, isOf, ?_, ?_, areBlocks⟩
  · rw [opening]
    exact List.cons_ne_nil _ _
  · intro said member
    rw [Layout.preamble, opening, List.tail_cons] at member
    obtain ⟨line, inFront, rfl⟩ := List.mem_map.mp (List.mem_filter.mp member).1
    exact plain line inFront

end Existence

end LimbAnimation.ClipFile
