import LimbAnimation.FirstMatch

/-!
# Facts about changing the first match

A list with a match is cut at the first one, and only that element changes.
Look-ups and views that the change respects are not disturbed.
-/

namespace LimbAnimation

variable {α β : Type}

/-- The first match stands between elements that stay as they are. -/
theorem modifyFirst_of_find?_eq_some
    {chosen : α → Bool} {items : List α} {found : α} (change : α → α)
    (present : items.find? chosen = some found) :
    ∃ before behind, items = before ++ found :: behind ∧
      modifyFirst chosen change items = before ++ change found :: behind := by
  induction items with
  | nil => simp at present
  | cons head rest ih =>
      rw [List.find?_cons] at present
      cases first : chosen head with
      | true =>
          simp only [first, Option.some.injEq] at present
          subst found
          exact ⟨[], rest, rfl, by simp [modifyFirst, first]⟩
      | false =>
          simp only [first] at present
          obtain ⟨before, behind, cut, changed⟩ := ih present
          refine ⟨head :: before, behind, by simp [cut], ?_⟩
          simp [modifyFirst, first, changed]

/-- A view that the change does not touch stays as it was. -/
theorem map_modifyFirst
    {chosen : α → Bool} {change : α → α} {view : α → β}
    (kept : ∀ item, view (change item) = view item) (items : List α) :
    (modifyFirst chosen change items).map view = items.map view := by
  induction items with
  | nil => rfl
  | cons head rest ih =>
      cases first : chosen head with
      | true => simp [modifyFirst, first, kept]
      | false => simp [modifyFirst, first, ih]

/-- A view that sees the match and the change is changed at its first match. -/
theorem map_modifyFirst_eq_modifyFirst
    {chosen : α → Bool} {change : α → α} {view : α → β} {chosen' : β → Bool} {change' : β → β}
    (sees : ∀ item, chosen' (view item) = chosen item)
    (moves : ∀ item, view (change item) = change' (view item)) (items : List α) :
    (modifyFirst chosen change items).map view = modifyFirst chosen' change' (items.map view) := by
  induction items with
  | nil => rfl
  | cons head rest ih =>
      cases first : chosen head with
      | true => simp [modifyFirst, first, sees, moves]
      | false => simp [modifyFirst, first, sees, ih]

theorem modifyFirst_of_find?_eq_none {chosen : α → Bool} {items : List α} (change : α → α)
    (absent : items.find? chosen = none) : modifyFirst chosen change items = items := by
  induction items with
  | nil => rfl
  | cons head rest ih =>
      rw [List.find?_cons] at absent
      cases first : chosen head with
      | true => simp [first] at absent
      | false =>
          simp only [first] at absent
          simp [modifyFirst, first, ih absent]

theorem modifyFirst_append (chosen : α → Bool) (change : α → α) (front behind : List α) :
    modifyFirst chosen change (front ++ behind) =
      if front.any chosen then modifyFirst chosen change front ++ behind
      else front ++ modifyFirst chosen change behind := by
  induction front with
  | nil => rfl
  | cons head rest ih =>
      cases first : chosen head with
      | true => simp [modifyFirst, first]
      | false =>
          cases present : rest.any chosen <;> simp [modifyFirst, first, ih, present]

theorem modifyFirst_append_cons {chosen : α → Bool} {before : List α} {found : α}
    (change : α → α) (noneBefore : ∀ item ∈ before, chosen item = false)
    (isChosen : chosen found = true) (behind : List α) :
    modifyFirst chosen change (before ++ found :: behind) = before ++ change found :: behind := by
  have none : before.any chosen = false :=
    List.any_eq_false.mpr fun item member => Bool.eq_false_iff.mp (noneBefore item member)
  simp [modifyFirst_append, none, modifyFirst, isChosen]

/-- The first match is found again, changed. -/
theorem find?_modifyFirst
    {chosen : α → Bool} {change : α → α}
    (kept : ∀ item, chosen (change item) = chosen item) (items : List α) :
    (modifyFirst chosen change items).find? chosen = (items.find? chosen).map change := by
  induction items with
  | nil => rfl
  | cons head rest ih =>
      cases first : chosen head with
      | true => simp [modifyFirst, first, kept]
      | false => simp [modifyFirst, first, ih]

/-- The first element of another kind is found as before. -/
theorem find?_modifyFirst_of_disjoint
    {chosen other : α → Bool} {change : α → α}
    (kept : ∀ item, other (change item) = other item)
    (disjoint : ∀ item, chosen item = true → other item = false) (items : List α) :
    (modifyFirst chosen change items).find? other = items.find? other := by
  induction items with
  | nil => rfl
  | cons head rest ih =>
      cases first : chosen head with
      | true => simp [modifyFirst, first, kept, disjoint head first]
      | false => simp [modifyFirst, first, ih, List.find?_cons]

/-- In a list without repeated keys, the first match is the only one. -/
theorem filter_eq_find?_toList [DecidableEq β] {key : α → β} {items : List α}
    (nodup : (items.map key).Nodup) (wanted : β) :
    (items.filter fun item => key item = wanted) =
      (items.find? fun item => key item = wanted).toList := by
  induction items with
  | nil => rfl
  | cons head rest ih =>
      rw [List.map_cons, List.nodup_cons] at nodup
      cases first : decide (key head = wanted) with
      | true =>
          have noOther : (rest.filter fun item => key item = wanted) = [] := by
            refine List.filter_eq_nil_iff.mpr fun item member matched => nodup.1 ?_
            rw [of_decide_eq_true first, ← of_decide_eq_true matched]
            exact List.mem_map_of_mem member
          simp [first, noOther]
      | false => simp [first, ih nodup.2]

/-- In a list without repeated keys, an element is found by its key. -/
theorem find?_eq_some_of_mem [DecidableEq β] {key : α → β} {items : List α}
    (nodup : (items.map key).Nodup) {item : α} (member : item ∈ items) :
    (items.find? fun other => key other = key item) = some item := by
  induction items with
  | nil => cases member
  | cons head rest ih =>
      rw [List.map_cons, List.nodup_cons] at nodup
      rcases List.mem_cons.mp member with rfl | later
      · simp
      · have different : key head ≠ key item := fun same =>
          nodup.1 (same ▸ List.mem_map_of_mem later)
        simp [different, ih nodup.2 later]

end LimbAnimation
