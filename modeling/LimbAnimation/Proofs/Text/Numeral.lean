import LimbAnimation.Text.Numeral
import Mathlib.Data.List.Basic

/-!
# Digits of numerals

What is read as a number in base ten consists of digits, and the digits of a number are
read as that number.
-/

namespace LimbAnimation.Text

section Checks

variable (text : List Char) (p : Char → Prop) [DecidablePred p]

-- A check of the characters of a text goes through the text and not through all characters.

instance decidableForall : Decidable (∀ character ∈ text, p character) := List.decidableBAll p text

instance decidableExists : Decidable (∃ character ∈ text, p character) :=
  List.decidableBEx p text

end Checks

theorem isDigit_iff {character : Char} :
    character.isDigit = true ↔ '0' ≤ character ∧ character ≤ '9' := by
  simp [Char.isDigit, Char.le_def]

theorem isDigit_of_digitIn? {character : Char} {digit : Nat}
    (read : digitIn? 10 character = some digit) : character.isDigit = true := by
  obtain ⟨value, small⟩ := Option.filter_eq_some_iff.mp read
  rw [digitValue?] at value
  split at value
  next bounds => exact isDigit_iff.mpr bounds
  next =>
      -- A letter counts at least ten.
      have bounded : digit < 10 := of_decide_eq_true small
      split at value
      next =>
          cases value
          omega
      next =>
          split at value
          next =>
              cases value
              omega
          next => cases value

theorem digitIn?_isSome_of_readDigits? {base value result : Nat} {text : List Char}
    (read : readDigits? base value text = some result) :
    ∀ character ∈ text, (digitIn? base character).isSome = true := by
  induction text generalizing value with
  | nil => simp
  | cons first rest ih =>
      obtain ⟨digit, here, later⟩ := Option.bind_eq_some_iff.mp read
      exact List.forall_mem_cons.mpr ⟨by rw [here]; rfl, ih later⟩

theorem isDigit_of_readDigits? {value result : Nat} {text : List Char}
    (read : readDigits? 10 value text = some result) :
    ∀ character ∈ text, character.isDigit = true := by
  intro character member
  obtain ⟨digit, here⟩ :=
    Option.isSome_iff_exists.mp (digitIn?_isSome_of_readDigits? read character member)
  exact isDigit_of_digitIn? here

theorem isDigit_of_readNat? {text : List Char} {number : Nat}
    (read : readNat? 10 text = some number) :
    text ≠ [] ∧ ∀ character ∈ text, character.isDigit = true := by
  rw [readNat?, Option.ite_none_left_eq_some, List.isEmpty_iff] at read
  exact ⟨read.1, isDigit_of_readDigits? read.2⟩

theorem splitSign_of_ne {first : Char} (other : first ≠ '-') (rest : List Char) :
    splitSign (first :: rest) = (false, first :: rest) := by
  unfold splitSign
  split
  next same => exact absurd (List.cons.inj same).1 other
  next => rfl

theorem readDigits?_append (base value : Nat) (front rest : List Char) :
    readDigits? base value (front ++ rest) =
      (readDigits? base value front).bind fun read => readDigits? base read rest := by
  induction front generalizing value with
  | nil => rfl
  | cons character front ih =>
      cases digit : digitIn? base character with
      | none => simp [readDigits?, digit]
      | some digit => simp [readDigits?, digit, ih]

theorem digitIn?_digitChar {base digit : Nat} (below : digit < base) (small : base ≤ 16) :
    digitIn? base digit.digitChar = some digit := by
  have value : ∀ digit < 16, digitValue? (Nat.digitChar digit) = some digit := by decide
  rw [digitIn?, value digit (Nat.lt_of_lt_of_le below small), Option.filter_some,
    if_pos (decide_eq_true below)]

/-- The digits of a number are read as that number. -/
theorem readDigits?_toDigits {base : Nat} (large : 1 < base) (small : base ≤ 16) (number : Nat) :
    readDigits? base 0 (Nat.toDigits base number) = some number := by
  induction number using Nat.strongRecOn with
  | _ number ih =>
      rw [Nat.toDigits_eq_if large]
      split
      next below => simp [readDigits?, digitIn?_digitChar below small]
      next above =>
          have shorter : number / base < number := Nat.div_lt_self (by omega) large
          have last : number % base < base := Nat.mod_lt number (by omega)
          rw [readDigits?_append, ih _ shorter]
          simp [readDigits?, digitIn?_digitChar last small, Nat.div_add_mod']

theorem readNat?_toDigits {base : Nat} (large : 1 < base) (small : base ≤ 16) (number : Nat) :
    readNat? base (Nat.toDigits base number) = some number := by
  rw [readNat?, if_neg (by simp [Nat.toDigits_ne_nil]), readDigits?_toDigits large small]

end LimbAnimation.Text
