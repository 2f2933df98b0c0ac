import LimbAnimation.Proofs.ClipFile.Description

/-!
# Reading is the inverse of writing sheets

The reader, which sees one line after the other, accepts exactly the files that are
written after a well-formed sheet, and gives the clip of the sheet.
-/

namespace LimbAnimation.ClipFile

open Single (IsLargest)

theorem readClip_eq_ok_iff {key : ClipKey} {content : Bytes} {clip : Clip} :
    readClip key content = .ok clip ↔
      ∃ sheet : Sheet, sheet.Written content ∧ sheet.WellFormed ∧ clip = sheet.clip key := by
  rw [readClip_eq_ok_iff_follow]
  constructor
  · intro given
    obtain ⟨texts, version, rest, last, decoded, cut, followed, closed⟩ := given
    obtain ⟨sheet, spelled⟩ := (Reader.shape_of_follow followed).1 rfl
    rw [← spelled] at followed
    exact ⟨sheet, ⟨texts, version, rest, decoded, cut, spelled_iff.mpr spelled.symm⟩,
      (Reader.follow_sheet sheet).mp ⟨last, followed, closed⟩⟩
  · intro given
    obtain ⟨sheet, ⟨texts, version, rest, decoded, cut, spelled⟩, proper⟩ := given
    obtain ⟨last, followed, closed⟩ := (Reader.follow_sheet sheet).mpr proper
    rw [← spelled_iff.mp spelled] at followed
    exact ⟨texts, version, rest, last, decoded, cut, followed, closed⟩

/-- Reading a file line by line gives a clip exactly when the file is written after
a well-formed sheet, and then it is the clip of the sheet.  A sheet is well-formed when all
its lines can be read with the numbers that its directives leave in force, and its clip has
one track for each passage, with keys and shapes at the places of the keyframes that its
lines note.  A track of that clip lasts until the latest keyframe of its passage, and the
clip until the end of its longest track. -/
theorem readClip_reads_sheets :
    (∀ (key : ClipKey) (content : Bytes) (clip : Clip),
      readClip key content = .ok clip ↔
        ∃ sheet : Sheet, sheet.Written content ∧ sheet.WellFormed ∧ clip = sheet.clip key) ∧
      (∀ raws : List (List Char), Counts true raws (significant raws)) ∧
      (∀ sheet : Sheet, LeavesInForce sheet.settings sheet.numbers) ∧
      (∀ sheet : Sheet, sheet.WellFormed ↔ sheet.Grammatical) ∧
      (∀ (key : ClipKey) (sheet : Sheet), sheet.WellFormed →
        sheet.Describes key (sheet.clip key)) ∧
      (∀ (numbers : Settings) (limb : Limb) (passage : Passage),
        IsLargest 0 ((passage.notes numbers).map fun note => note.keyframe.time)
          (passage.track numbers limb).duration) ∧
      ∀ (key : ClipKey) (sheet : Sheet),
        IsLargest 0 ((sheet.clip key).tracks.map Track.duration) (sheet.clip key).duration := by
  refine ⟨fun _ _ _ => readClip_eq_ok_iff, counts_significant, leavesInForce_numbers,
    fun _ => Sheet.wellFormed_iff_grammatical, fun key _ => Sheet.clip_describes key, ?_, ?_⟩
  · intro numbers limb passage
    have largest := (passage.block numbers limb).duration_isLargest
    rwa [Passage.block, List.map_map] at largest
  · intro key sheet
    exact longest_isLargest (sheet.clip key).tracks

/-- A hand with a speed that is set, one that is ignored and a comment. -/
theorem readClip_reads_sheets_of_grasp :
    let key : ClipKey := ⟨"grasp", "guard"⟩
    let content := ("1.0\n# twice as fast\nspeed 2\nspeed x\nsmooth\n" ++
      "HAND\n aim\n1s 3px 4px\n4s fist\n").toUTF8.data.toList
    ∃ (sheet : Sheet) (clip : Clip), readClip key content = .ok clip ∧
      sheet.Written content ∧ sheet.Grammatical ∧ sheet.Describes key clip ∧
      clip.tracks.map Track.limb = [.hand 0] ∧ clip.duration = 2 := by
  intro key content
  have computed : ((readClip key content).toOption.any fun clip =>
      clip.tracks.map Track.limb = [.hand 0] ∧ clip.duration = 2) = true := by decide +kernel
  obtain ⟨clip, found, facts⟩ := (Option.any_eq_true _ _).mp computed
  obtain ⟨limbs, duration⟩ := of_decide_eq_true facts
  have read := toOption_eq_some_iff.mp found
  obtain ⟨reads, _, _, grammatical, describes, _, _⟩ := readClip_reads_sheets
  obtain ⟨sheet, written, proper, rfl⟩ := (reads key content clip).mp read
  exact ⟨sheet, _, read, written, (grammatical sheet).mp proper, describes key sheet proper,
    limbs, duration⟩

end LimbAnimation.ClipFile
