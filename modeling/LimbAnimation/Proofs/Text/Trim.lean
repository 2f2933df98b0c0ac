import LimbAnimation.Text.Blank
import Mathlib.Data.List.DropRight

/-!
# Trimmed texts

Blanks around a text do not change what is left when they are taken away.
-/

namespace LimbAnimation.Text

variable {text padded : List Char}

def AllBlank (text : List Char) : Prop := ∀ character ∈ text, isBlank character = true

instance (text : List Char) : Decidable (AllBlank text) :=
  List.decidableBAll (isBlank · = true) text

/-- A text with blanks around it, if any. -/
def Pads (text padded : List Char) : Prop :=
  ∃ left right, AllBlank left ∧ AllBlank right ∧ padded = left ++ text ++ right

theorem trim_eq (text : List Char) : trim text = (text.dropWhile isBlank).rdropWhile isBlank := rfl

theorem rdropWhile_append_blank {right : List Char} (blank : AllBlank right) (text : List Char) :
    (text ++ right).rdropWhile isBlank = text.rdropWhile isBlank := by
  have reversed : AllBlank right.reverse := fun character member =>
    blank character (List.mem_reverse.mp member)
  rw [List.rdropWhile, List.rdropWhile, List.reverse_append, List.dropWhile_append_of_pos reversed]

theorem trim_blank_append {left : List Char} (blank : AllBlank left) (text : List Char) :
    trim (left ++ text) = trim text := by
  rw [trim_eq, trim_eq, List.dropWhile_append_of_pos blank]

theorem trim_of_allBlank (blank : AllBlank text) : trim text = [] := by
  rw [trim_eq, List.dropWhile_eq_nil_iff.mpr blank, List.rdropWhile_nil]

theorem trim_append_blank {right : List Char} (blank : AllBlank right) (text : List Char) :
    trim (text ++ right) = trim text := by
  by_cases allBlank : AllBlank text
  · rw [trim_blank_append allBlank, trim_of_allBlank allBlank, trim_of_allBlank blank]
  · have visible : (text.dropWhile isBlank).isEmpty = false := by
      rw [List.isEmpty_eq_false_iff]
      exact fun none => allBlank (List.dropWhile_eq_nil_iff.mp none)
    rw [trim_eq, trim_eq, List.dropWhile_append, visible]
    exact rdropWhile_append_blank blank _

theorem Pads.trim_eq (pads : Pads text padded) : trim padded = trim text := by
  obtain ⟨left, right, blankLeft, blankRight, rfl⟩ := pads
  rw [List.append_assoc, trim_blank_append blankLeft, trim_append_blank blankRight]

theorem pads_rdropWhile (text : List Char) : Pads (text.rdropWhile isBlank) text := by
  refine ⟨[], text.rtakeWhile isBlank, by simp [AllBlank], fun _ => List.mem_rtakeWhile_imp, ?_⟩
  rw [List.nil_append, List.rdropWhile_append_rtakeWhile]

theorem pads_trim (text : List Char) : Pads (trim text) text := by
  refine ⟨text.takeWhile isBlank, (text.dropWhile isBlank).rtakeWhile isBlank,
    fun _ => List.mem_takeWhile_imp, fun _ => List.mem_rtakeWhile_imp, ?_⟩
  rw [trim_eq, List.append_assoc, List.rdropWhile_append_rtakeWhile,
    List.takeWhile_append_dropWhile]

theorem mem_of_mem_trim {character : Char} (member : character ∈ trim text) :
    character ∈ text := by
  obtain ⟨left, right, _, _, cut⟩ := pads_trim text
  rw [cut]
  exact List.mem_append_left _ (List.mem_append_right _ member)

theorem trim_cons {head : Char} (visible : isBlank head = false) (rest : List Char) :
    trim (head :: rest) = head :: rest.rdropWhile isBlank := by
  rw [trim_eq, List.dropWhile_cons_of_neg (by simp [visible]), List.rdropWhile, List.reverse_cons,
    List.dropWhile_append]
  split
  next none => simp [List.rdropWhile, List.isEmpty_iff.mp none, visible]
  next => simp [List.rdropWhile]

end LimbAnimation.Text
