import LimbAnimation.Text.Blank

/-!
# Beginnings and endings of texts
-/

namespace LimbAnimation.Text

variable {α : Type} [DecidableEq α]

theorem dropPrefix?_eq_some_iff {start text rest : List α} :
    dropPrefix? start text = some rest ↔ text = start ++ rest := by
  induction start generalizing text with
  | nil => simp [dropPrefix?, eq_comm]
  | cons expected start ih =>
      cases text with
      | nil => simp [dropPrefix?]
      | cons head text =>
          by_cases same : expected = head
          · subst head
            simp [dropPrefix?, ih]
          · have different : ¬ head = expected := fun equal => same equal.symm
            simp [dropPrefix?, same, different]

theorem dropPrefix?_append (start rest : List α) :
    dropPrefix? start (start ++ rest) = some rest := dropPrefix?_eq_some_iff.mpr rfl

theorem dropSuffix?_eq_some_iff {ending text front : List α} :
    dropSuffix? ending text = some front ↔ text = front ++ ending := by
  rw [dropSuffix?, Option.map_eq_some_iff]
  constructor
  · intro given
    obtain ⟨reversed, cut, same⟩ := given
    have whole := congrArg List.reverse (dropPrefix?_eq_some_iff.mp cut)
    rw [List.reverse_reverse, List.reverse_append, List.reverse_reverse, same] at whole
    exact whole
  · intro whole
    subst whole
    refine ⟨front.reverse, ?_, List.reverse_reverse front⟩
    rw [List.reverse_append]
    exact dropPrefix?_append ending.reverse front.reverse

theorem dropSuffix?_append (front ending : List α) :
    dropSuffix? ending (front ++ ending) = some front := dropSuffix?_eq_some_iff.mpr rfl

end LimbAnimation.Text
