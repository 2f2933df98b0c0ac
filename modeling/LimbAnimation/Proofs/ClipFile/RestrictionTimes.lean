import LimbAnimation.Proofs.ClipFile.OneSheet
import LimbAnimation.Proofs.Restrictions.Timeline

/-!
# The restrictions of a file

The restrictions that hold at a time are those of the keyframe with the latest time that has
come, and of several such keyframes those of the one written last, in whichever block.  But
the total order, by which they are sorted, puts a keyframe at the negative zero in front of
those at the positive one, even if it was written behind them.
-/

namespace LimbAnimation

namespace RestrictionTimeline

open Single (ComesBefore SameNumber zeroOf)

variable {given : List RestrictionEntry} {time : Single} {set : Restrictions}
variable {entry : RestrictionEntry} {index : Nat}

/-- The latest entry is at the negative zero, and another one at the positive zero. -/
def Hidden (given : List RestrictionEntry) (time : Single) : Prop :=
  ∃ index entry, Latest (· < ·) given time index entry ∧ entry.time = zeroOf true ∧
    ∃ other ∈ given, other.time = zeroOf false

/-- Where the entries at the positive zero stand. -/
def atPositiveZero (given : List RestrictionEntry) : Set Nat :=
  places (fun entry => entry.time = zeroOf false) given

/-- In the total order, the latest entry is the last one of its time. -/
theorem Latest.isGreatest (latest : Latest ComesBefore given time index entry) :
    IsGreatest (places (fun other => other.time = entry.time) given) index := by
  refine (isGreatest_places_iff latest.stands).mpr ⟨decide_eq_true rfl, ?_⟩
  intro other behind
  refine decide_eq_false fun sameTime => ?_
  have before := latest.afterLater other behind (sameTime ▸ latest.hasBegun)
  rw [sameTime] at before
  exact ComesBefore.irrefl _ before

/-- What has begun has a number as its time, so the total order goes beyond comparisons for
zeros only. -/
theorem Latest.lt_or_zeros (latest : Latest ComesBefore given time index entry)
    {other : RestrictionEntry} (behind : other ∈ given.drop (index + 1))
    (hasBegun : other.time ≤ time) :
    other.time < entry.time ∨ other.time = zeroOf true ∧ entry.time = zeroOf false :=
  (latest.afterLater other behind hasBegun).of_numbers (Single.isNaN_left_of_le hasBegun)
    (Single.isNaN_left_of_le latest.hasBegun)

/-- If the total order leads to the positive zero, a negative one written behind it is
hidden. -/
theorem hidden_of_zeros (latest : Latest ComesBefore given time index entry)
    (positive : entry.time = zeroOf false) {other : RestrictionEntry}
    (behind : other ∈ given.drop (index + 1)) (negative : other.time = zeroOf true) :
    Hidden given time := by
  obtain ⟨place, less, stands⟩ := mem_drop_succ_iff.mp behind
  have member : place ∈ places (fun entry => entry.time = zeroOf true) given :=
    ⟨other, stands, decide_eq_true negative⟩
  obtain ⟨last, greatest⟩ := exists_isGreatest_places member
  obtain ⟨found, foundStands, isNegative⟩ := greatest.1
  have foundTime : found.time = zeroOf true := of_decide_eq_true isNegative
  have sameTime : SameNumber found.time entry.time := by
    rw [foundTime, positive]
    exact Single.sameNumber_zeroOf true false
  refine ⟨last, found, ⟨foundStands, ?_, ?_, ?_⟩, foundTime, entry, latest.mem, positive⟩
  · exact (sameTime.le_iff_le (.refl time)).mpr latest.hasBegun
  · intro candidate candidateMember hasBegun later
    exact latest.notBefore candidate candidateMember hasBegun
      (.smaller ((sameTime.lt_iff_lt (.refl _)).mp later))
  · intro candidate behindLast hasBegun
    have behindFirst : candidate ∈ given.drop (index + 1) := by
      have notBefore := greatest.2 member
      exact List.drop_subset_drop_left given (by omega) behindLast
    rcases latest.lt_or_zeros behindFirst hasBegun with smaller | ⟨candidateNegative, _⟩
    · exact ((SameNumber.refl _).lt_iff_lt sameTime).mpr smaller
    · have isOther := ((isGreatest_places_iff foundStands).mp greatest).2 candidate behindLast
      exact absurd candidateNegative (of_decide_eq_false isOther)

/-- Apart from hidden entries, the total order leads to the entry that comparisons lead to. -/
theorem Governs.of_not_hidden (governs : Governs ComesBefore given time set)
    (notHidden : ¬ Hidden given time) : Governs (· < ·) given time set := by
  cases governs with
  | nothing waiting => exact .nothing waiting
  | @latest index entry latest =>
      refine .latest ⟨latest.stands, latest.hasBegun, ?_, ?_⟩
      · intro other member hasBegun later
        exact latest.notBefore other member hasBegun (.smaller later)
      · intro other behind hasBegun
        rcases latest.lt_or_zeros behind hasBegun with smaller | ⟨negative, positive⟩
        · exact smaller
        · exact absurd (hidden_of_zeros latest positive behind negative) notHidden

/-- A hidden entry leaves its place to the last one at the positive zero. -/
theorem Governs.of_hidden (governs : Governs ComesBefore given time set)
    (hidden : Hidden given time) :
    ∃ index entry, IsGreatest (atPositiveZero given) index ∧ given[index]? = some entry ∧
      set = entry.restrictions := by
  obtain ⟨last, found, latestFound, foundTime, other, member, otherTime⟩ := hidden
  have sameTime : SameNumber found.time other.time := by
    rw [foundTime, otherTime]
    exact Single.sameNumber_zeroOf true false
  have otherBegun := (sameTime.le_iff_le (.refl time)).mp latestFound.hasBegun
  cases governs with
  | nothing waiting => exact absurd otherBegun (waiting other member)
  | @latest index entry latest =>
      have positive : entry.time = zeroOf false := by
        rw [← otherTime]
        rcases Single.comesBefore_trichotomy entry.time other.time with before | same | after
        · exact absurd before (latest.notBefore other member otherBegun)
        · exact same
        · have otherNumber := Single.isNaN_left_of_le otherBegun
          rcases after.of_numbers otherNumber (Single.isNaN_left_of_le latest.hasBegun)
            with larger | ⟨negative, _⟩
          · exact absurd ((sameTime.lt_iff_lt (.refl _)).mpr larger)
              (latestFound.notBefore entry latest.mem latest.hasBegun)
          · rw [otherTime] at negative
            cases negative
      refine ⟨index, entry, ?_, latest.stands, rfl⟩
      have greatest := latest.isGreatest
      rwa [positive] at greatest

end RestrictionTimeline

namespace ClipFile

open RestrictionTimeline

/-- The restrictions of all passages, in the order of the file. -/
def Sheet.restrictions (sheet : Sheet) : List RestrictionEntry :=
  sheet.passages.flatMap (Passage.restrictions sheet.numbers)

theorem Sheet.clip_restrictions (sheet : Sheet) (key : ClipKey) :
    (sheet.clip key).restrictions = sorted ⟨sheet.restrictions⟩ := rfl

/-- At a time the restrictions of a file are those of the keyframe with the latest time that
has come, or of the last one written with that time, unless that one is at the negative zero
and another one at the positive zero: then they are those of the last one written there. -/
theorem restrictions_follow_file_unless_zeros_mix {key : ClipKey} {content : Bytes} {clip : Clip}
    (read : readClip key content = .ok clip) :
    ∃ sheet : Sheet, sheet.Written content ∧ (∀ other : Sheet, other.Written content →
      other = sheet) ∧ ∀ time,
        (¬ Hidden sheet.restrictions time → ∀ set, clip.restrictions.restrictionsAt time = set ↔
          Governs (· < ·) sheet.restrictions time set) ∧
        (Hidden sheet.restrictions time → ∃ index entry,
          IsGreatest (atPositiveZero sheet.restrictions) index ∧
            sheet.restrictions[index]? = some entry ∧
            clip.restrictions.restrictionsAt time = entry.restrictions) := by
  obtain ⟨sheet, written, _, rfl⟩ := readClip_eq_ok_iff.mp read
  refine ⟨sheet, written, fun other writtenOther => writtenOther.unique written,
    fun time => ?_⟩
  have governs : Governs Single.ComesBefore sheet.restrictions time
      ((sheet.clip key).restrictions.restrictionsAt time) := by
    rw [sheet.clip_restrictions]
    exact restrictionsAt_sorted_iff.mp rfl
  refine ⟨fun notHidden set => ?_, governs.of_hidden⟩
  have governsNumbers := governs.of_not_hidden notHidden
  constructor
  · rintro rfl
    exact governsNumbers
  · exact governsNumbers.unique

/-- Two blocks give restrictions at one time. -/
theorem restrictions_follow_file_across_blocks :
    let content := ("1\nspeed 2\nBODY\n2s constraints(PreventWalking)\n" ++
      "1s constraints(PreventAiming)\nHAND\n1s constraints(PreventDodge)\n").toUTF8.data.toList
    ∃ clip, readClip ⟨"walk", "guard"⟩ content = .ok clip ∧
      clip.restrictions.restrictionsAt 1 = Restriction.preventWalking.set ∧
      clip.restrictions.restrictionsAt .half = Restriction.preventDodge.set := by
  intro content
  let texts := ["1", "speed 2", "BODY", "2s constraints(PreventWalking)",
    "1s constraints(PreventAiming)", "HAND", "1s constraints(PreventDodge)"].map String.toList
  let sheet : Sheet := ⟨[.directive .speed "2".toList],
    [⟨.body, [.keyframe "2s constraints(PreventWalking)".toList,
      .keyframe "1s constraints(PreventAiming)".toList]⟩,
      ⟨.hand, [.keyframe "1s constraints(PreventDodge)".toList]⟩]⟩
  have computed : (readClip ⟨"walk", "guard"⟩ content).toOption.isSome = true ∧
      (Delivery.whole content).lines.mapM decode? = some texts ∧
      significant texts = "1".toList :: texts.tail := by decide +kernel
  obtain ⟨readable, decoded, cut⟩ := computed
  have written : sheet.Written content :=
    ⟨texts, _, texts.tail, decoded, cut, spelled_iff.mpr rfl⟩
  have times : Latest (· < ·) sheet.restrictions 1 0 ⟨1, Restriction.preventWalking.set⟩ ∧
      Latest (· < ·) sheet.restrictions .half 2 ⟨.half, Restriction.preventDodge.set⟩ ∧
      ∀ entry ∈ sheet.restrictions, entry.time ≠ .zeroOf true := by decide +kernel
  obtain ⟨atOne, atHalf, nowhere⟩ := times
  obtain ⟨clip, found⟩ := Option.isSome_iff_exists.mp readable
  have read := toOption_eq_some_iff.mp found
  obtain ⟨_, _, unique, shown⟩ := restrictions_follow_file_unless_zeros_mix read
  obtain rfl := unique sheet written
  have notHidden (time : Single) : ¬ Hidden sheet.restrictions time := by
    rintro ⟨_, entry, latest, negative, _⟩
    exact nowhere entry latest.mem negative
  exact ⟨clip, read, ((shown 1).1 (notHidden 1) _).mpr (.latest atOne),
    ((shown .half).1 (notHidden .half) _).mpr (.latest atHalf)⟩

/-- Of two keyframes at zero the one written last is lost, since its zero is negative. -/
theorem negative_zero_is_hidden :
    let content := ("1\nBODY\n0s constraints(PreventWalking)\n" ++
      "-0s constraints(PreventAiming)\n").toUTF8.data.toList
    ∃ (sheet : Sheet) (clip : Clip), sheet.Written content ∧
      readClip ⟨"walk", "guard"⟩ content = .ok clip ∧
      Governs (· < ·) sheet.restrictions 0 Restriction.preventAiming.set ∧
      clip.restrictions.restrictionsAt 0 = Restriction.preventWalking.set := by
  intro content
  let texts := ["1", "BODY", "0s constraints(PreventWalking)",
    "-0s constraints(PreventAiming)"].map String.toList
  let sheet : Sheet := ⟨[], [⟨.body, [.keyframe "0s constraints(PreventWalking)".toList,
    .keyframe "-0s constraints(PreventAiming)".toList]⟩]⟩
  have computed : (readClip ⟨"walk", "guard"⟩ content).toOption.isSome = true ∧
      (Delivery.whole content).lines.mapM decode? = some texts ∧
      significant texts = "1".toList :: texts.tail := by decide +kernel
  obtain ⟨readable, decoded, cut⟩ := computed
  have written : sheet.Written content :=
    ⟨texts, _, texts.tail, decoded, cut, spelled_iff.mpr rfl⟩
  have times : Latest (· < ·) sheet.restrictions 0 1
        ⟨.zeroOf true, Restriction.preventAiming.set⟩ ∧
      Latest Single.ComesBefore sheet.restrictions 0 0
        ⟨.zeroOf false, Restriction.preventWalking.set⟩ := by decide +kernel
  obtain ⟨byNumber, byTotalOrder⟩ := times
  obtain ⟨clip, found⟩ := Option.isSome_iff_exists.mp readable
  have read := toOption_eq_some_iff.mp found
  obtain ⟨other, writtenOther, _, rfl⟩ := readClip_eq_ok_iff.mp read
  obtain rfl := written.unique writtenOther
  exact ⟨sheet, _, written, read, .latest byNumber,
    restrictionsAt_sorted_iff.mpr (.latest byTotalOrder)⟩

end ClipFile

end LimbAnimation
