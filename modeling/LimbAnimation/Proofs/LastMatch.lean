import Mathlib.Order.Bounds.Basic

/-!
# The last match

A search from the end of a list finds the match that stands at the greatest place.
-/

namespace LimbAnimation

variable {α : Type} {chosen : α → Bool} {items : List α}

/-- Where in a list the matches stand. -/
def places (chosen : α → Bool) (items : List α) : Set Nat :=
  { index | ∃ item, items[index]? = some item ∧ chosen item = true }

/-- What stands behind a place. -/
theorem mem_drop_succ_iff {index : Nat} {item : α} :
    item ∈ items.drop (index + 1) ↔ ∃ place, index < place ∧ items[place]? = some item := by
  constructor
  · intro member
    obtain ⟨offset, stands⟩ := List.getElem?_of_mem member
    rw [List.getElem?_drop] at stands
    exact ⟨index + 1 + offset, by omega, stands⟩
  · rintro ⟨place, less, stands⟩
    refine List.mem_of_getElem? (i := place - (index + 1)) ?_
    rwa [List.getElem?_drop, Nat.add_sub_cancel' less]

/-- The last match is one behind which there is no other. -/
theorem isGreatest_places_iff {index : Nat} {item : α} (stands : items[index]? = some item) :
    IsGreatest (places chosen items) index ↔
      chosen item = true ∧ ∀ other ∈ items.drop (index + 1), chosen other = false := by
  constructor
  · rintro ⟨⟨found, stands', isChosen⟩, greatest⟩
    cases stands.symm.trans stands'
    refine ⟨isChosen, fun other member => ?_⟩
    obtain ⟨place, less, behind⟩ := mem_drop_succ_iff.mp member
    refine Bool.eq_false_iff.mpr fun otherChosen => ?_
    exact absurd (greatest ⟨other, behind, otherChosen⟩) (Nat.not_le_of_lt less)
  · rintro ⟨isChosen, behind⟩
    refine ⟨⟨item, stands, isChosen⟩, ?_⟩
    rintro place ⟨other, otherStands, otherChosen⟩
    refine Nat.le_of_not_lt fun less => ?_
    rw [behind other (mem_drop_succ_iff.mpr ⟨place, less, otherStands⟩)] at otherChosen
    cases otherChosen

theorem find?_reverse_eq_none_iff :
    items.reverse.find? chosen = none ↔ ∀ item ∈ items, chosen item = false := by
  simp

/-- Searching from the end finds the last match. -/
theorem find?_reverse_eq_some_iff {item : α} :
    items.reverse.find? chosen = some item ↔
      ∃ index, IsGreatest (places chosen items) index ∧ items[index]? = some item := by
  constructor
  · intro found
    obtain ⟨isChosen, later, earlier, reversed, behind⟩ :=
      List.find?_eq_some_iff_append.mp found
    have cut : items = (earlier.reverse ++ [item]) ++ later.reverse := by
      rw [← List.reverse_reverse items, reversed]
      simp
    have stands : items[earlier.length]? = some item := by simp [cut]
    have after : items.drop (earlier.length + 1) = later.reverse := by
      rw [cut]
      exact List.drop_left' (by simp)
    refine ⟨earlier.length, (isGreatest_places_iff stands).mpr ⟨isChosen, ?_⟩, stands⟩
    intro other member
    rw [after, List.mem_reverse] at member
    simpa using behind other member
  · rintro ⟨index, greatest, stands⟩
    obtain ⟨isChosen, behind⟩ := (isGreatest_places_iff stands).mp greatest
    obtain ⟨inRange, rfl⟩ := List.getElem?_eq_some_iff.mp stands
    rw [List.find?_eq_some_iff_append]
    refine ⟨isChosen, (items.drop (index + 1)).reverse, (items.take index).reverse, ?_, ?_⟩
    · calc items.reverse
          = (items.take index ++ items[index] :: items.drop (index + 1)).reverse := by simp
        _ = (items.drop (index + 1)).reverse ++ items[index] :: (items.take index).reverse := by
            simp only [List.reverse_append, List.reverse_cons, List.append_assoc,
              List.singleton_append]
    · intro other member
      simpa using behind other (List.mem_reverse.mp member)

/-- In a sorted list every match stands in front of the last one. -/
theorem le_find?_reverse {le : α → α → Bool} (refl : ∀ item, le item item = true)
    (sorted : items.Pairwise fun earlier later => le earlier later = true) {item : α}
    (found : items.reverse.find? chosen = some item) :
    ∀ other ∈ items, chosen other = true → le other item = true := by
  obtain ⟨_, later, earlier, cut, waiting⟩ := List.find?_eq_some_iff_append.mp found
  have inOrder : (later ++ item :: earlier).Pairwise fun second first =>
      le first second = true := by
    rw [← cut, List.pairwise_reverse]
    exact sorted
  intro other member otherChosen
  rw [← List.mem_reverse, cut] at member
  rcases List.mem_append.mp member with behind | atOrBefore
  · have unchosen := waiting other behind
    simp [otherChosen] at unchosen
  · rcases List.mem_cons.mp atOrBefore with rfl | before
    · exact refl other
    · exact (List.pairwise_cons.mp (List.pairwise_append.mp inOrder).2.1).1 other before

theorem exists_isGreatest_places {index : Nat} (member : index ∈ places chosen items) :
    ∃ last, IsGreatest (places chosen items) last := by
  obtain ⟨item, stands, isChosen⟩ := member
  cases found : items.reverse.find? chosen with
  | none =>
      have unchosen := find?_reverse_eq_none_iff.mp found item (List.mem_of_getElem? stands)
      rw [isChosen] at unchosen
      cases unchosen
  | some last =>
      obtain ⟨place, greatest, _⟩ := find?_reverse_eq_some_iff.mp found
      exact ⟨place, greatest⟩

/-- With more matches the last one does not stand further in front. -/
theorem isGreatest_places_mono {chosen' : α → Bool}
    (kept : ∀ item, chosen item = true → chosen' item = true) {index : Nat}
    (greatest : IsGreatest (places chosen items) index) :
    ∃ index', index ≤ index' ∧ IsGreatest (places chosen' items) index' := by
  obtain ⟨item, stands, isChosen⟩ := greatest.1
  have member : index ∈ places chosen' items := ⟨item, stands, kept item isChosen⟩
  obtain ⟨last, lastGreatest⟩ := exists_isGreatest_places member
  exact ⟨last, lastGreatest.2 member, lastGreatest⟩

end LimbAnimation
