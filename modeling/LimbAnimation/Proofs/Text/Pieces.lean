import LimbAnimation.Text.Blank
import Mathlib.Data.List.Basic

/-!
# Pieces

Facts about the parts of a list between its separating elements.
-/

namespace LimbAnimation.Text

variable {α : Type} {separates : α → Bool}

theorem pieces_cons_of_separates {head : α} (separator : separates head = true)
    (rest : List α) : pieces separates (head :: rest) = [] :: pieces separates rest := by
  simp [pieces, separator]

theorem exists_pieces_eq_cons (separates : α → Bool) (items : List α) :
    ∃ part parts, pieces separates items = part :: parts := by
  cases items with
  | nil => exact ⟨[], [], rfl⟩
  | cons head rest =>
      rw [pieces]
      split
      next => exact ⟨_, _, rfl⟩
      next => exact ⟨_, _, rfl⟩
      next => exact ⟨_, _, rfl⟩

theorem pieces_cons_of_not_separates {head : α} {rest part : List α} {parts : List (List α)}
    (other : separates head = false) (cut : pieces separates rest = part :: parts) :
    pieces separates (head :: rest) = (head :: part) :: parts := by
  simp [pieces, other, cut]

theorem length_pieces (separates : α → Bool) (items : List α) :
    (pieces separates items).length = items.countP separates + 1 := by
  induction items with
  | nil => rfl
  | cons head rest ih =>
      cases separator : separates head with
      | true => simp [pieces_cons_of_separates separator, separator, ih]
      | false =>
          obtain ⟨part, parts, cut⟩ := exists_pieces_eq_cons separates rest
          rw [pieces_cons_of_not_separates separator cut]
          simpa [cut, separator] using ih

/-- The parts that a separating element ends stay when more follows. -/
theorem take_pieces_append (separates : α → Bool) (items more : List α) :
    (pieces separates (items ++ more)).take (items.countP separates) =
      (pieces separates items).dropLast := by
  induction items with
  | nil => rfl
  | cons head rest ih =>
      rw [List.cons_append]
      cases separator : separates head with
      | true =>
          obtain ⟨part, parts, cut⟩ := exists_pieces_eq_cons separates rest
          rw [pieces_cons_of_separates separator, pieces_cons_of_separates separator,
            List.countP_cons_of_pos separator, List.take_succ_cons, ih, cut,
            List.dropLast_cons_cons]
      | false =>
          obtain ⟨part, parts, cut⟩ := exists_pieces_eq_cons separates rest
          obtain ⟨first, others, cutMore⟩ :=
            exists_pieces_eq_cons separates (rest ++ more)
          have length : parts.length = rest.countP separates := by
            simpa [cut] using length_pieces separates rest
          rw [pieces_cons_of_not_separates separator cut,
            pieces_cons_of_not_separates separator cutMore,
            List.countP_cons_of_neg (by simp [separator])]
          rw [cut, cutMore, ← length] at ih
          rw [← length]
          cases parts with
          | nil => rfl
          | cons next parts =>
              simp only [List.length_cons, List.take_succ_cons, List.dropLast_cons_cons,
                List.cons.injEq] at ih ⊢
              exact ⟨⟨trivial, ih.1⟩, ih.2⟩

theorem pieces_of_none {items : List α} (none : ∀ item ∈ items, separates item = false) :
    pieces separates items = [items] := by
  induction items with
  | nil => rfl
  | cons head rest ih =>
      rw [List.forall_mem_cons] at none
      exact pieces_cons_of_not_separates none.1 (ih none.2)

theorem pieces_append_cons {part : List α} {separator : α}
    (none : ∀ item ∈ part, separates item = false) (ends : separates separator = true)
    (rest : List α) :
    pieces separates (part ++ separator :: rest) = part :: pieces separates rest := by
  induction part with
  | nil => exact pieces_cons_of_separates ends rest
  | cons head part ih =>
      rw [List.forall_mem_cons] at none
      exact pieces_cons_of_not_separates none.1 (ih none.2)

/-- A separating element parts what stands on both sides of it. -/
theorem pieces_append_separator {separator : α} (ends : separates separator = true)
    (front rest : List α) :
    pieces separates (front ++ separator :: rest) =
      pieces separates front ++ pieces separates rest := by
  induction front with
  | nil => exact pieces_cons_of_separates ends rest
  | cons head front ih =>
      rw [List.cons_append]
      cases separator : separates head with
      | true =>
          rw [pieces_cons_of_separates separator, pieces_cons_of_separates separator, ih,
            List.cons_append]
      | false =>
          obtain ⟨part, parts, cut⟩ := exists_pieces_eq_cons separates front
          rw [cut, List.cons_append] at ih
          rw [pieces_cons_of_not_separates separator ih, pieces_cons_of_not_separates separator cut,
            List.cons_append]

theorem pieces_intercalate {parts : List (List α)} {separator : α}
    (ends : separates separator = true) (nonempty : parts ≠ [])
    (none : ∀ part ∈ parts, ∀ item ∈ part, separates item = false) :
    pieces separates ([separator].intercalate parts) = parts := by
  induction parts with
  | nil => exact absurd rfl nonempty
  | cons part parts ih =>
      obtain ⟨own, others⟩ := List.forall_mem_cons.mp none
      cases parts with
      | nil => rw [List.intercalate_singleton, pieces_of_none own]
      | cons next parts =>
          rw [List.intercalate_cons_cons, List.append_assoc, List.singleton_append,
            pieces_append_cons own ends, ih (List.cons_ne_nil _ _) others]

theorem intercalate_pieces {separator : α}
    (only : ∀ item, separates item = true → item = separator) (items : List α) :
    [separator].intercalate (pieces separates items) = items := by
  induction items with
  | nil => rfl
  | cons head rest ih =>
      obtain ⟨part, parts, cut⟩ := exists_pieces_eq_cons separates rest
      rw [cut] at ih
      cases ends : separates head with
      | true =>
          rw [pieces_cons_of_separates ends, cut, List.intercalate_cons_cons, ih, only head ends]
          rfl
      | false =>
          rw [pieces_cons_of_not_separates ends cut]
          cases parts with
          | nil =>
              rw [List.intercalate_singleton] at ih
              rw [List.intercalate_singleton, ih]
          | cons next parts =>
              rw [List.intercalate_cons_cons] at ih
              rw [List.intercalate_cons_cons, List.cons_append, List.cons_append, ih]

end LimbAnimation.Text
