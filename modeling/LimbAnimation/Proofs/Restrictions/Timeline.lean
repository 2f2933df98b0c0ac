import LimbAnimation.Proofs.LastMatch
import LimbAnimation.Proofs.Rearrangement
import LimbAnimation.Proofs.Single.TotalOrder
import LimbAnimation.Restrictions.Timeline

/-!
# Sorted restriction timelines

Entries are sorted by the total order of their times, but a search asks which times are at
most a given one, and such comparisons know neither signed zeros nor NaNs.  The entry that a
search finds is the last one of those that have begun, in the total order and then in the
order in which they were added.
-/

namespace LimbAnimation.RestrictionTimeline

open Single (ComesBefore)

/-- Entries added one after the other to an empty timeline. -/
def filled (given : List RestrictionEntry) : RestrictionTimeline :=
  given.foldl add empty

/-- Where the entries that have begun by a time stand. -/
def begun (timeline : RestrictionTimeline) (time : Single) : Set Nat :=
  places (fun entry => entry.time ≤ time) timeline.entries

/-- Of the entries that have begun, the one with the latest time; of several such ones, the
one given last. -/
structure Latest (Before : Single → Single → Prop) (given : List RestrictionEntry)
    (time : Single) (index : Nat) (entry : RestrictionEntry) : Prop where
  stands : given[index]? = some entry
  hasBegun : entry.time ≤ time
  notBefore : ∀ other ∈ given, other.time ≤ time → ¬ Before entry.time other.time
  afterLater : ∀ other ∈ given.drop (index + 1), other.time ≤ time →
    Before other.time entry.time

/-- The restrictions of the latest entry; none if no entry has begun. -/
inductive Governs (Before : Single → Single → Prop) (given : List RestrictionEntry)
    (time : Single) : Restrictions → Prop where
  | nothing : (∀ entry ∈ given, ¬ entry.time ≤ time) → Governs Before given time .empty
  | latest {index : Nat} {entry : RestrictionEntry} : Latest Before given time index entry →
      Governs Before given time entry.restrictions

variable {Before : Single → Single → Prop} {given : List RestrictionEntry} {time : Single}
variable {timeline : RestrictionTimeline} {entry : RestrictionEntry} {index : Nat}

instance [DecidableRel Before] : Decidable (Latest Before given time index entry) :=
  decidable_of_iff (given[index]? = some entry ∧ entry.time ≤ time ∧
      (∀ other ∈ given, other.time ≤ time → ¬ Before entry.time other.time) ∧
      ∀ other ∈ given.drop (index + 1), other.time ≤ time → Before other.time entry.time)
    ⟨fun ⟨stands, hasBegun, notBefore, afterLater⟩ =>
        ⟨stands, hasBegun, notBefore, afterLater⟩,
      fun ⟨stands, hasBegun, notBefore, afterLater⟩ =>
        ⟨stands, hasBegun, notBefore, afterLater⟩⟩

theorem Latest.mem (latest : Latest Before given time index entry) : entry ∈ given :=
  List.mem_of_getElem? latest.stands

/-- There is at most one latest entry. -/
theorem Latest.unique {index' : Nat} {entry' : RestrictionEntry}
    (latest : Latest Before given time index entry)
    (latest' : Latest Before given time index' entry') : index = index' ∧ entry = entry' := by
  rcases Nat.lt_trichotomy index index' with less | rfl | greater
  · have behind := mem_drop_succ_iff.mpr ⟨index', less, latest'.stands⟩
    have before := latest.afterLater entry' behind latest'.hasBegun
    exact absurd before (latest'.notBefore entry latest.mem latest.hasBegun)
  · exact ⟨rfl, Option.some.inj (latest.stands.symm.trans latest'.stands)⟩
  · have behind := mem_drop_succ_iff.mpr ⟨index, greater, latest.stands⟩
    have before := latest'.afterLater entry behind latest.hasBegun
    exact absurd before (latest.notBefore entry' latest'.mem latest'.hasBegun)

theorem Governs.unique {set set' : Restrictions} (governs : Governs Before given time set)
    (governs' : Governs Before given time set') : set = set' := by
  cases governs with
  | nothing waiting =>
      cases governs' with
      | nothing _ => rfl
      | latest latest' => exact absurd latest'.hasBegun (waiting _ latest'.mem)
  | latest latest =>
      cases governs' with
      | nothing waiting' => exact absurd latest.hasBegun (waiting' _ latest.mem)
      | latest latest' => rw [(latest.unique latest').2]

theorem entries_foldl_add (given : List RestrictionEntry) (timeline : RestrictionTimeline) :
    (given.foldl add timeline).entries = timeline.entries ++ given := by
  induction given generalizing timeline with
  | nil => simp
  | cons entry given ih =>
      rw [List.foldl_cons, ih]
      simp [add]

theorem filled_entries (given : List RestrictionEntry) : (filled given).entries = given :=
  entries_foldl_add given empty

section Sorting

/-- What entries are sorted by. -/
def notLater (earlier later : RestrictionEntry) : Bool :=
  decide (earlier.time.totalKey ≤ later.time.totalKey)

theorem sorted_entries (timeline : RestrictionTimeline) :
    timeline.sorted.entries = timeline.entries.mergeSort notLater := rfl

theorem notLater_iff {earlier later : RestrictionEntry} :
    notLater earlier later = true ↔ ¬ ComesBefore later.time earlier.time := by
  rw [← Single.totalKey_lt_iff, notLater, decide_eq_true_iff, Int.not_lt]

theorem notLater_eq_false_iff {earlier later : RestrictionEntry} :
    notLater earlier later = false ↔ ComesBefore later.time earlier.time := by
  rw [← Bool.not_eq_true, notLater_iff, not_not]

theorem notLater_trans (first second third : RestrictionEntry)
    (inOrder : notLater first second = true) (inOrder' : notLater second third = true) :
    notLater first third = true := by
  simp only [notLater, decide_eq_true_iff] at *
  omega

theorem notLater_total (first second : RestrictionEntry) :
    (notLater first second || notLater second first) = true := by
  simp only [notLater, Bool.or_eq_true, decide_eq_true_iff]
  omega

theorem sorted_perm (timeline : RestrictionTimeline) :
    timeline.sorted.entries.Perm timeline.entries :=
  List.mergeSort_perm _ _

theorem sorted_pairwise (timeline : RestrictionTimeline) :
    timeline.sorted.entries.Pairwise fun earlier later => notLater earlier later = true :=
  List.pairwise_mergeSort notLater_trans notLater_total _

/-- In the total order, times do not fall. -/
theorem sorted_ordered (timeline : RestrictionTimeline) :
    timeline.sorted.entries.Pairwise fun earlier later =>
      ComesBefore earlier.time later.time ∨ earlier.time = later.time := by
  refine timeline.sorted_pairwise.imp fun {earlier later} inOrder => ?_
  rw [notLater, decide_eq_true_iff] at inOrder
  rcases Int.lt_or_eq_of_le inOrder with less | same
  · exact .inl (Single.totalKey_lt_iff.mp less)
  · exact .inr (Single.totalKey_inj.mp same)

theorem sorted_sorted (timeline : RestrictionTimeline) : timeline.sorted.sorted = timeline.sorted :=
  congrArg RestrictionTimeline.mk (List.mergeSort_of_pairwise timeline.sorted_pairwise)

/-- Entries of one time keep their order. -/
theorem filter_sorted (timeline : RestrictionTimeline) (time : Single) :
    timeline.sorted.entries.filter (fun entry => entry.time = time) =
      timeline.entries.filter fun entry => entry.time = time := by
  have sameTime : (timeline.entries.filter fun entry => entry.time = time).Pairwise
      fun earlier later => notLater earlier later = true := by
    refine List.pairwise_of_forall_mem_list fun earlier member later member' => ?_
    have atTime : earlier.time = time := by simpa using (List.mem_filter.mp member).2
    have atTime' : later.time = time := by simpa using (List.mem_filter.mp member').2
    rw [notLater, atTime, atTime']
    exact decide_eq_true (Int.le_refl _)
  have kept : (timeline.entries.filter fun entry => entry.time = time).Sublist
      (timeline.sorted.entries.filter fun entry => entry.time = time) := by
    have sublist := (List.sublist_mergeSort notLater_trans notLater_total sameTime
      List.filter_sublist).filter fun entry => decide (entry.time = time)
    simpa only [List.filter_filter, Bool.and_self, sorted_entries] using sublist
  exact (kept.eq_of_length ((timeline.sorted_perm.filter _).length_eq).symm).symm

/-- Timelines that have the same entries in the same order for each time are the same when
they are sorted. -/
theorem sorted_congr {other : RestrictionTimeline}
    (same : ∀ time, timeline.entries.filter (fun entry => entry.time = time) =
      other.entries.filter fun entry => entry.time = time) : timeline.sorted = other.sorted := by
  have sameTime : ∀ earlier later : RestrictionEntry, notLater earlier later = true →
      notLater later earlier = true → earlier.time = later.time := by
    intro earlier later inOrder inOrder'
    rw [notLater, decide_eq_true_iff] at inOrder inOrder'
    exact Single.totalKey_inj.mp (Int.le_antisymm inOrder inOrder')
  refine congrArg RestrictionTimeline.mk
    (eq_of_pairwise_of_filter sameTime timeline.sorted_pairwise other.sorted_pairwise ?_)
  intro time
  exact (timeline.filter_sorted time).trans ((same time).trans (other.filter_sorted time).symm)

/-- The entries of a timeline are given ones in the total order of their times, and those of
one time stand as they were given. -/
structure Sorts (timeline : RestrictionTimeline) (given : List RestrictionEntry) : Prop where
  perm : timeline.entries.Perm given
  ordered : timeline.entries.Pairwise fun earlier later =>
    ComesBefore earlier.time later.time ∨ earlier.time = later.time
  stable : ∀ time, timeline.entries.filter (fun entry => entry.time = time) =
    given.filter fun entry => entry.time = time

theorem sorted_sorts (timeline : RestrictionTimeline) : timeline.sorted.Sorts timeline.entries :=
  ⟨timeline.sorted_perm, timeline.sorted_ordered, timeline.filter_sorted⟩

/-- Sorting is sorting with the places as a second key. -/
theorem sorted_entries_eq_map (timeline : RestrictionTimeline) :
    timeline.sorted.entries =
      (timeline.entries.zipIdx.mergeSort (List.zipIdxLE notLater)).map Prod.fst :=
  List.mergeSort_zipIdx.symm

/-- Of entries of one time, the one at the smaller place stands in front. -/
theorem zipIdxLE_notLater_iff {other : RestrictionEntry} {place : Nat} :
    List.zipIdxLE notLater (other, place) (entry, index) = true ↔
      ¬ ComesBefore entry.time other.time ∧
        (index < place → ComesBefore other.time entry.time) := by
  cases forth : notLater other entry with
  | false =>
      have after := notLater_eq_false_iff.mp forth
      simp [List.zipIdxLE, forth, after]
  | true =>
      have notAfter := notLater_iff.mp forth
      cases back : notLater entry other with
      | false =>
          have before := notLater_eq_false_iff.mp back
          simp [List.zipIdxLE, forth, back, notAfter, before]
      | true =>
          have notBefore := notLater_iff.mp back
          simp [List.zipIdxLE, forth, back, notAfter, notBefore]

end Sorting

section Search

theorem entryAt?_eq_none_iff :
    timeline.entryAt? time = none ↔ ∀ entry ∈ timeline.entries, ¬ entry.time ≤ time := by
  rw [entryAt?, find?_reverse_eq_none_iff]
  simp

/-- The entry found is the one at the greatest place among those that have begun. -/
theorem entryAt?_eq_some_iff_isGreatest :
    timeline.entryAt? time = some entry ↔
      ∃ index, IsGreatest (timeline.begun time) index ∧ timeline.entries[index]? = some entry :=
  find?_reverse_eq_some_iff

/-- Later the entry found does not stand further in front. -/
theorem isGreatest_begun_mono {time' : Single} (inOrder : time ≤ time')
    (greatest : IsGreatest (timeline.begun time) index) :
    ∃ index', index ≤ index' ∧ IsGreatest (timeline.begun time') index' := by
  refine isGreatest_places_mono (fun entry hasBegun => ?_) greatest
  rw [decide_eq_true_iff] at hasBegun ⊢
  exact Single.le_trans hasBegun inOrder

/-- In a sorted timeline, the entry found is the latest of those that were given. -/
theorem latest_of_entryAt?_sorted (found : timeline.sorted.entryAt? time = some entry) :
    ∃ index, Latest ComesBefore timeline.entries time index entry := by
  rw [entryAt?, sorted_entries_eq_map, ← List.map_reverse, List.find?_map] at found
  obtain ⟨⟨entry, index⟩, numbered, rfl⟩ := Option.map_eq_some_iff.mp found
  have hasBegun := List.find?_some numbered
  have sorted := List.pairwise_mergeSort (List.zipIdxLE_trans notLater_trans)
    (List.zipIdxLE_total notLater_total) timeline.entries.zipIdx
  have front : ∀ place other, timeline.entries[place]? = some other → other.time ≤ time →
      List.zipIdxLE notLater (other, place) (entry, index) = true := by
    intro place other stands otherBegun
    refine le_find?_reverse (fun item => ?_) sorted numbered _ ?_ (by simpa using otherBegun)
    · simpa using List.zipIdxLE_total notLater_total item item
    · rw [List.mem_mergeSort]
      exact List.mk_mem_zipIdx_iff_getElem?.mpr stands
  refine ⟨index, ?_, by simpa using hasBegun, ?_, ?_⟩
  · have member := List.mem_of_find?_eq_some numbered
    rw [List.mem_reverse, List.mem_mergeSort] at member
    exact List.mk_mem_zipIdx_iff_getElem?.mp member
  · intro other member otherBegun
    obtain ⟨place, stands⟩ := List.getElem?_of_mem member
    exact (zipIdxLE_notLater_iff.mp (front place other stands otherBegun)).1
  · intro other member otherBegun
    obtain ⟨place, less, stands⟩ := mem_drop_succ_iff.mp member
    exact (zipIdxLE_notLater_iff.mp (front place other stands otherBegun)).2 less

/-- A sorted timeline shows the restrictions of the latest entry that was given. -/
theorem restrictionsAt_sorted_iff {set : Restrictions} :
    timeline.sorted.restrictionsAt time = set ↔
      Governs ComesBefore timeline.entries time set := by
  have governs : Governs ComesBefore timeline.entries time
      (timeline.sorted.restrictionsAt time) := by
    unfold restrictionsAt
    cases found : timeline.sorted.entryAt? time with
    | none =>
        have waiting := entryAt?_eq_none_iff.mp found
        exact .nothing fun entry member =>
          waiting entry (timeline.sorted_perm.mem_iff.mpr member)
    | some entry =>
        obtain ⟨index, latest⟩ := latest_of_entryAt?_sorted found
        exact .latest latest
  constructor
  · rintro rfl
    exact governs
  · exact governs.unique

theorem restrictionsAt_of_isNaN (isNaN : time.isNaN = true) :
    timeline.restrictionsAt time = .empty := by
  have none : timeline.entryAt? time = none :=
    entryAt?_eq_none_iff.mpr fun entry _ hasBegun => by
      have isNumber := Single.isNaN_of_le hasBegun
      rw [isNaN] at isNumber
      cases isNumber
  rw [restrictionsAt, none]

end Search

/-- Sorting puts entries in the total order of their times and leaves those of one time as
they were added; the search then finds the last one of the entries that have begun, in that
order and by the order of addition, and never goes back as the time goes on. -/
theorem sorted_timeline_finds_latest (given : List RestrictionEntry) :
    let timeline := (filled given).sorted
    timeline.entries.Perm given ∧
      timeline.entries.Pairwise (fun earlier later =>
        ComesBefore earlier.time later.time ∨ earlier.time = later.time) ∧
      (∀ time, timeline.entries.filter (fun entry => entry.time = time) =
        given.filter fun entry => entry.time = time) ∧
      timeline.sorted = timeline ∧
      (∀ time set, timeline.restrictionsAt time = set ↔ Governs ComesBefore given time set) ∧
      (∀ time, time.isNaN = true → timeline.restrictionsAt time = .empty) ∧
      (∀ time entry, timeline.entryAt? time = some entry ↔
        ∃ index, IsGreatest (timeline.begun time) index ∧
          timeline.entries[index]? = some entry) ∧
      ∀ first second, first ≤ second → ∀ index, IsGreatest (timeline.begun first) index →
        ∃ index', index ≤ index' ∧ IsGreatest (timeline.begun second) index' := by
  intro timeline
  have entries := filled_entries given
  obtain ⟨perm, ordered, stable⟩ := entries ▸ (filled given).sorted_sorts
  refine ⟨perm, ordered, stable, sorted_sorted _, fun time set => ?_,
    fun _ => restrictionsAt_of_isNaN, fun _ _ => entryAt?_eq_some_iff_isGreatest,
    fun _ _ inOrder _ => isGreatest_begun_mono inOrder⟩
  have shown : (filled given).sorted.restrictionsAt time = set ↔
      Governs ComesBefore (filled given).entries time set := restrictionsAt_sorted_iff
  rwa [entries] at shown

theorem sorted_timeline_finds_latest_among_zeros_and_nans :
    let given : List RestrictionEntry :=
      [⟨1, Restriction.preventWalking.set⟩, ⟨.zeroOf false, Restriction.preventAiming.set⟩,
        ⟨.nan false (2 ^ 22) (by decide), Restriction.preventDodge.set⟩,
        ⟨.zeroOf true, Restriction.preventShooting.set⟩, ⟨1, Restriction.preventMelee.set⟩,
        ⟨.nan true (2 ^ 22) (by decide), Restriction.preventDying.set⟩]
    let timeline := (filled given).sorted
    timeline.restrictionsAt (.zeroOf true) = Restriction.preventAiming.set ∧
      timeline.restrictionsAt 1 = Restriction.preventMelee.set ∧
      timeline.restrictionsAt (.nan false (2 ^ 22) (by decide)) = .empty := by
  intro given timeline
  obtain ⟨_, _, _, _, governed, atNaN, _⟩ := sorted_timeline_finds_latest given
  have latest : Latest ComesBefore given (.zeroOf true) 1
      ⟨.zeroOf false, Restriction.preventAiming.set⟩ ∧
      Latest ComesBefore given 1 4 ⟨1, Restriction.preventMelee.set⟩ := by decide +kernel
  obtain ⟨atZero, atOne⟩ := latest
  exact ⟨(governed _ _).mpr (.latest atZero), (governed _ _).mpr (.latest atOne), atNaN _ rfl⟩

end LimbAnimation.RestrictionTimeline
