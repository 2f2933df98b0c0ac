import LimbAnimation.Proofs.ClipFile.Layout
import LimbAnimation.Proofs.ClipFile.RestrictionTimes

/-!
# The order of blocks

The blocks of a file can be put in another order.  Hands are numbered in the order of their
blocks, so these keep theirs, and of keyframes that restrict something at the same time the
one in the later block counts, so there are none in different blocks.  Then the clip is the
same.
-/

namespace LimbAnimation.ClipFile

namespace Passage

/-- Two passages that restrict nothing at the same time; the two zeros are different times. -/
def Apart (numbers : Settings) (passage other : Passage) : Prop :=
  ∀ entry ∈ passage.restrictions numbers, ∀ otherEntry ∈ other.restrictions numbers,
    entry.time ≠ otherEntry.time

instance (numbers : Settings) (passage other : Passage) :
    Decidable (Apart numbers passage other) :=
  inferInstanceAs (Decidable (∀ _ ∈ _, _))

theorem apart_filter {numbers : Settings} {passage other : Passage}
    (apart : Apart numbers passage other) (time : Single) :
    (passage.restrictions numbers).filter (fun entry => entry.time = time) = [] ∨
      (other.restrictions numbers).filter (fun entry => entry.time = time) = [] := by
  rw [or_iff_not_imp_left]
  intro some
  obtain ⟨entry, member⟩ := List.exists_mem_of_ne_nil _ some
  obtain ⟨own, atTime⟩ := List.mem_filter.mp member
  refine List.filter_eq_nil_iff.mpr fun otherEntry otherOwn otherAtTime => ?_
  exact apart entry own otherEntry otherOwn
    ((of_decide_eq_true atTime).trans (of_decide_eq_true otherAtTime).symm)

end Passage

theorem headed_perm {passages others : List Passage} (perm : passages.Perm others)
    (header : Header) : (headed header passages).Perm (headed header others) :=
  perm.filter _

namespace Sheet

variable {sheet : Sheet} {passages : List Passage}

theorem WellFormed.of_perm (proper : sheet.WellFormed) (perm : sheet.passages.Perm passages) :
    WellFormed { sheet with passages := passages } where
  settings := proper.settings
  oneBody := (headed_perm perm .body).length_eq ▸ proper.oneBody
  oneHead := (headed_perm perm .head).length_eq ▸ proper.oneHead
  passages passage member := proper.passages passage (perm.mem_iff.mpr member)

/-- Restrictions are sorted by time, so their blocks can be rearranged if no two of them
share a time. -/
theorem sorted_restrictions_of_perm (perm : sheet.passages.Perm passages)
    (apart : sheet.passages.Pairwise (Passage.Apart sheet.numbers)) :
    RestrictionTimeline.sorted ⟨sheet.restrictions⟩ =
      RestrictionTimeline.sorted ⟨restrictions { sheet with passages := passages }⟩ := by
  refine RestrictionTimeline.sorted_congr fun time => ?_
  simp only [restrictions, List.filter_flatMap]
  exact flatMap_eq_of_perm perm (apart.imp fun pair => Passage.apart_filter pair time)

theorem clip_of_perm (key : ClipKey) (proper : sheet.WellFormed)
    (perm : sheet.passages.Perm passages)
    (hands : headed .hand sheet.passages = headed .hand passages)
    (apart : sheet.passages.Pairwise (Passage.Apart sheet.numbers)) :
    clip key { sheet with passages := passages } = sheet.clip key := by
  have body := eq_of_perm_of_length_le_one (headed_perm perm .body) proper.oneBody
  have head := eq_of_perm_of_length_le_one (headed_perm perm .head) proper.oneHead
  have restrictions := sorted_restrictions_of_perm perm apart
  have numbers : Sheet.numbers { sheet with passages := passages } = sheet.numbers := rfl
  simp only [Sheet.restrictions, numbers] at restrictions
  simp only [clip, numbers, ← body, ← head, ← hands, ← restrictions]

end Sheet

/-- Whether a block is one for a hand. -/
def isHandBlock (block : List (List Char)) : Bool := decide (blockHeader? block = some .hand)

theorem filter_isHandBlock {blocks : List (List (List Char))} {passages : List Passage}
    (isBlock : ∀ block ∈ blocks, IsBlock block) (renders : List.Forall₂ Renders blocks passages) :
    List.Forall₂ Renders (blocks.filter isHandBlock) (headed .hand passages) := by
  induction renders with
  | nil => exact .nil
  | @cons block passage blocks passages here _ ih =>
      obtain ⟨first, others⟩ := List.forall_mem_cons.mp isBlock
      obtain ⟨header, isHeader⟩ := Option.isSome_iff_exists.mp first.headed
      have same := here.header isHeader
      have alike : isHandBlock block = decide (passage.header = .hand) := by
        rw [isHandBlock, isHeader, same]
        simp
      rw [headed, List.filter_cons, List.filter_cons, alike]
      split
      · exact .cons here (ih others)
      · exact ih others

/-- A file that can be read falls into blocks.  A file whose blocks stand in another order, with
those of the hands in the same one, gives the same clip, if no two keyframes of different blocks
restrict something at the same time. -/
theorem block_order_is_immaterial {key : ClipKey} {content : Bytes} {clip : Clip}
    (read : readClip key content = .ok clip) :
    (∃ layout : Layout, layout.IsOf content ∧ layout.Proper) ∧
      ∀ (layout : Layout) (blocks : List (List (List Char))) (sheet : Sheet) (other : Bytes),
        layout.IsOf content → layout.Proper → layout.blocks.Perm blocks →
          layout.blocks.filter isHandBlock = blocks.filter isHandBlock →
            sheet.Written content → sheet.passages.Pairwise (Passage.Apart sheet.numbers) →
              Layout.IsOf ⟨layout.opening, blocks⟩ other → readClip key other = .ok clip := by
  obtain ⟨own, ownWritten, wellFormed, rfl⟩ := readClip_eq_ok_iff.mp read
  constructor
  · obtain ⟨texts, version, rest, decoded, cut, _⟩ := ownWritten
    exact Layout.exists_isOf decoded (cut ▸ List.cons_ne_nil version rest)
  · intro layout blocks sheet other isOf proper rearranged inOrder written apart otherIsOf
    obtain rfl := written.unique ownWritten
    obtain ⟨preamble, renders⟩ := (isOf.written_iff proper).mp written
    obtain ⟨passages, otherRenders, perm⟩ := List.perm_comp_forall₂ rearranged.symm renders
    have otherProper : Layout.Proper ⟨layout.opening, blocks⟩ :=
      ⟨proper.version, proper.preamble, fun block member =>
        proper.blocks block (rearranged.mem_iff.mpr member)⟩
    have hands : headed .hand sheet.passages = headed .hand passages := by
      have ownHands := filter_isHandBlock proper.blocks renders
      have otherHands := filter_isHandBlock otherProper.blocks otherRenders
      rw [inOrder] at ownHands
      have functional : Relator.RightUnique Renders := fun _ _ _ first second =>
        first.unique second
      exact List.right_unique_forall₂' functional ownHands otherHands
    let otherSheet : Sheet := { sheet with passages := passages }
    have otherWritten : otherSheet.Written other :=
      (otherIsOf.written_iff otherProper).mpr ⟨preamble, otherRenders⟩
    exact readClip_eq_ok_iff.mpr ⟨otherSheet, otherWritten, wellFormed.of_perm perm.symm,
      (Sheet.clip_of_perm key wellFormed perm.symm hands apart).symm⟩

/-- Four blocks, of which the first one comes last. -/
theorem block_order_is_immaterial_to_walk :
    let key : ClipKey := ⟨"walk", "guard"⟩
    let opening := ["1.0", "fps 10", "smooth"].map String.toList
    let body := ["BODY", "0 1px 2px constraints(PreventWalking)", "20 3px 4px", "# fist"]
      |>.map String.toList
    let fist := ["HAND", "1s fist constraints(PreventAiming)", ""].map String.toList
    let head := ["HEAD", "aim", ".5s 10deg"].map String.toList
    let palm := ["HAND", "3s open constraints(PreventDodge)"].map String.toList
    let content := ("1.0\nfps 10\nsmooth\nBODY\n0 1px 2px constraints(PreventWalking)\n" ++
      "20 3px 4px\n# fist\nHAND\n1s fist constraints(PreventAiming)\n\nHEAD\naim\n" ++
      ".5s 10deg\nHAND\n3s open constraints(PreventDodge)").toUTF8.data.toList
    let other := ("1.0\nfps 10\nsmooth\nHEAD\naim\n.5s 10deg\nHAND\n" ++
      "1s fist constraints(PreventAiming)\n\nHAND\n3s open constraints(PreventDodge)\n" ++
      "BODY\n0 1px 2px constraints(PreventWalking)\n20 3px 4px\n# fist").toUTF8.data.toList
    Layout.IsOf ⟨opening, [body, fist, head, palm]⟩ content ∧
      Layout.IsOf ⟨opening, [head, fist, palm, body]⟩ other ∧
      ∃ clip, readClip key content = .ok clip ∧ readClip key other = .ok clip := by
  intro key opening body fist head palm content other
  let layout : Layout := ⟨opening, [body, fist, head, palm]⟩
  let sheet : Sheet := ⟨[.directive .fps "10".toList, .switch .smooth],
    [⟨.body, [.keyframe "0 1px 2px constraints(PreventWalking)".toList,
      .keyframe "20 3px 4px".toList]⟩,
      ⟨.hand, [.keyframe "1s fist constraints(PreventAiming)".toList]⟩,
      ⟨.head, [.aim, .keyframe ".5s 10deg".toList]⟩,
      ⟨.hand, [.keyframe "3s open constraints(PreventDodge)".toList]⟩]⟩
  have files : (readClip key content).toOption.isSome = true ∧ layout.IsOf content ∧
      Layout.IsOf ⟨opening, [head, fist, palm, body]⟩ other := by decide +kernel
  have blocks : layout.Proper ∧ layout.blocks.Perm [head, fist, palm, body] ∧
      layout.blocks.filter isHandBlock = [head, fist, palm, body].filter isHandBlock ∧
      sheet.passages.Pairwise (Passage.Apart sheet.numbers) := by decide +kernel
  obtain ⟨readable, isOf, otherIsOf⟩ := files
  obtain ⟨proper, rearranged, inOrder, apart⟩ := blocks
  have written : sheet.Written content :=
    (isOf.written_iff proper).mpr ⟨spelled_iff.mpr rfl, renders_all_iff.mpr rfl⟩
  obtain ⟨clip, found⟩ := Option.isSome_iff_exists.mp readable
  have read := toOption_eq_some_iff.mp found
  exact ⟨isOf, otherIsOf, clip, read, (block_order_is_immaterial read).2 layout _ sheet other isOf
    proper rearranged inOrder written apart otherIsOf⟩

end LimbAnimation.ClipFile
