import LimbAnimation.Json.Printer
import LimbAnimation.Json.Token
import LimbAnimation.Proofs.Text.Numeral

/-!
# Printed numerals

A natural number of 64 bits is read back from its digits, and a decimal whose digits fit 64
bits is read with all of them from the word that it is printed as.
-/

namespace LimbAnimation

namespace Text

theorem isDigit_of_mem_toDigits {number : Nat} {character : Char}
    (member : character ∈ Nat.toDigits 10 number) : character.isDigit = true :=
  Nat.isDigit_of_mem_toDigits (by decide) (by decide) member

/-- Only the digits of zero begin with a zero. -/
theorem head?_toDigits {number : Nat} (zero : (Nat.toDigits 10 number).head? = some '0') :
    number = 0 := by
  induction number using Nat.strongRecOn with
  | _ number ih =>
      rw [Nat.toDigits_eq_if (by decide)] at zero
      split at zero
      next below =>
          have digits : ∀ digit < 10, Nat.digitChar digit = '0' → digit = 0 := by decide
          exact digits number below (Option.some.inj zero)
      next above =>
          rw [List.head?_append_of_ne_nil _ Nat.toDigits_ne_nil] at zero
          have front := ih (number / 10) (by omega) zero
          omega

theorem readDigits?_zeros (base count : Nat) (rest : List Char) (positive : 0 < base) :
    readDigits? base 0 (List.replicate count '0' ++ rest) = readDigits? base 0 rest := by
  have zero : digitIn? base '0' = some 0 := by
    have value : digitValue? '0' = some 0 := by decide
    rw [digitIn?, value]
    simp [positive]
  induction count with
  | zero => rfl
  | succ count ih => simpa [List.replicate_succ, readDigits?, zero] using ih

theorem le_of_readDigits? {size value : Nat} {digits : List Char}
    (read : readDigits? 10 size digits = some value) : size ≤ value := by
  induction digits generalizing size with
  | nil => exact Nat.le_of_eq (Option.some.inj read)
  | cons character rest ih =>
      obtain ⟨digit, _, later⟩ := Option.bind_eq_some_iff.mp read
      have more := ih later
      omega

theorem lt_of_readDigits? {size value : Nat} {digits : List Char}
    (read : readDigits? 10 size digits = some value) : value < (size + 1) * 10 ^ digits.length := by
  induction digits generalizing size with
  | nil =>
      cases read
      simp
  | cons character rest ih =>
      obtain ⟨digit, here, later⟩ := Option.bind_eq_some_iff.mp read
      have small : digit < 10 := of_decide_eq_true (Option.filter_eq_some_iff.mp here).2
      calc value
        _ < (size * 10 + digit + 1) * 10 ^ rest.length := ih later
        _ ≤ ((size + 1) * 10) * 10 ^ rest.length := Nat.mul_le_mul_right _ (by omega)
        _ = (size + 1) * 10 ^ (rest.length + 1) := by rw [Nat.mul_assoc, ← Nat.pow_succ']

theorem lt_ten_pow_length (number : Nat) : number < 10 ^ (Nat.toDigits 10 number).length := by
  have below := lt_of_readDigits? (readDigits?_toDigits (by decide) (by decide) number)
  rwa [Nat.zero_add, Nat.one_mul] at below

end Text

namespace Json

/-- Digits that stay below the limit are all gathered. -/
theorem gatherDigits_eq {size value : Nat} {digits : List Char}
    (read : Text.readDigits? 10 size digits = some value) (small : value < sizeLimit) :
    gatherDigits size digits = (value, []) := by
  induction digits generalizing size with
  | nil =>
      cases read
      rfl
  | cons character rest ih =>
      obtain ⟨digit, here, later⟩ := Option.bind_eq_some_iff.mp read
      have below := Nat.lt_of_le_of_lt (Text.le_of_readDigits? later) small
      rw [gatherDigits, here, Option.filter_some, if_pos (decide_eq_true below)]
      exact ih later

theorem spanDigits?_append {digits rest : List Char} (nonempty : digits ≠ [])
    (all : ∀ character ∈ digits, character.isDigit = true)
    (ends : ∀ next ∈ rest.head?, next.isDigit = false) :
    spanDigits? (digits ++ rest) = some (digits, rest) := by
  have stops : rest.takeWhile Char.isDigit = [] ∧ rest.dropWhile Char.isDigit = rest := by
    cases rest with
    | nil => exact ⟨rfl, rfl⟩
    | cons next rest =>
        have other := ends next rfl
        simp [other]
  rw [spanDigits?, List.takeWhile_append_of_pos all, List.dropWhile_append_of_pos all, stops.1,
    stops.2, List.append_nil]
  simp [nonempty]

theorem spanDigits?_of_digits {digits : List Char} (nonempty : digits ≠ [])
    (all : ∀ character ∈ digits, character.isDigit = true) :
    spanDigits? digits = some (digits, []) := by
  have nothing : ∀ next ∈ ([] : List Char).head?, next.isDigit = false := by simp
  have spans := spanDigits?_append nonempty all nothing
  rwa [List.append_nil] at spans

theorem splitSign_signChars {first : Char} (other : first ≠ '-') (negative : Bool)
    (rest : List Char) :
    Text.splitSign (signChars negative ++ first :: rest) = (negative, first :: rest) := by
  cases negative with
  | true => rfl
  | false => exact Text.splitSign_of_ne other rest

/-- What a word of digits, fraction and exponent denotes when all digits are gathered. -/
theorem numeral?_eq (negative : Bool) {whole tail fraction after : List Char}
    {leading coefficient : Nat} (nonempty : whole ≠ [])
    (digits : ∀ character ∈ whole, character.isDigit = true)
    (plain : whole.head? = some '0' → whole.length = 1)
    (ends : ∀ next ∈ tail.head?, next.isDigit = false)
    (spans : spanFraction? tail = some (fraction, after))
    (front : gatherDigits 0 whole = (leading, []))
    (behind : gatherDigits leading fraction = (coefficient, [])) :
    numeral? (signChars negative ++ (whole ++ tail)) =
      if after.isEmpty then
        if fraction.isEmpty then some (.ofDigits negative coefficient)
        else some (.ofDecimal ⟨negative, coefficient, -(fraction.length : Int)⟩)
      else (exponent? after).map fun exponent =>
        .ofDecimal ⟨negative, coefficient, exponent - fraction.length⟩ := by
  have sign :
      Text.splitSign (signChars negative ++ (whole ++ tail)) = (negative, whole ++ tail) := by
    cases whole with
    | nil => exact absurd rfl nonempty
    | cons first rest =>
        apply splitSign_signChars
        intro minus
        have digit := digits first List.mem_cons_self
        rw [minus] at digit
        cases digit
  have noZero : ¬ (whole.head? = some '0' ∧ whole.length ≠ 1) := by
    intro given
    exact given.2 (plain given.1)
  rw [numeral?, sign]
  dsimp only
  rw [spanDigits?_append nonempty digits ends]
  dsimp only [Option.bind_eq_bind, Option.bind_some]
  rw [if_neg noZero, spans]
  dsimp only [Option.bind_some]
  rw [front]
  dsimp only
  rw [behind]
  dsimp only
  have places : ((([] : List Char).length : Int) + ([] : List Char).length - fraction.length) =
      -(fraction.length : Int) := by simp
  rw [places]
  cases exponent? after with
  | none => simp
  | some exponent => simp [Int.sub_eq_add_neg]

/-- The digits with a point behind some of them: one at least before the point, and no zero
before them. -/
theorem pointed_eq (coefficient places : Nat) :
    ∃ whole fraction, Decimal.pointed coefficient places =
        whole ++ (if places = 0 then [] else '.' :: fraction) ∧
      Text.readDigits? 10 0 (whole ++ fraction) = some coefficient ∧
        fraction.length = places ∧ whole ≠ [] ∧
          (whole.head? = some '0' → whole.length = 1) := by
  generalize padding : places + 1 - (Nat.toDigits 10 coefficient).length = zeros
  generalize padded : List.replicate zeros '0' ++ Nat.toDigits 10 coefficient = digits
  have length : zeros + (Nat.toDigits 10 coefficient).length = digits.length := by
    rw [← padded, List.length_append, List.length_replicate]
  have written : Decimal.pointed coefficient places =
      digits.take (digits.length - places) ++
        (if places = 0 then [] else '.' :: digits.drop (digits.length - places)) := by
    rw [Decimal.pointed]
    simp only [padding, padded]
    split
    next none => rw [none, Nat.sub_zero, List.take_length, List.append_nil]
    next => rfl
  have wholeLength : (digits.take (digits.length - places)).length = digits.length - places := by
    rw [List.length_take]
    omega
  refine ⟨_, _, written, ?_, ?_, ?_, ?_⟩
  · rw [List.take_append_drop, ← padded, Text.readDigits?_zeros 10 zeros _ (by decide)]
    exact Text.readDigits?_toDigits (by decide) (by decide) coefficient
  · rw [List.length_drop]
    omega
  · intro none
    rw [none, List.length_nil] at wholeLength
    omega
  · intro zero
    rw [wholeLength]
    cases zeros with
    | succ zeros => omega
    | zero =>
        -- Without a zero put before them, the digits begin with one only if they are a zero.
        rw [List.replicate_zero, List.nil_append] at padded
        rw [List.head?_take, Option.ite_none_left_eq_some, ← padded] at zero
        have one : (Nat.toDigits 10 0).length = 1 := by decide
        rw [Text.head?_toDigits zero.2, one] at padding length
        omega

theorem length_toDigits_of_zero {number : Nat}
    (zero : (Nat.toDigits 10 number).head? = some '0') : (Nat.toDigits 10 number).length = 1 := by
  rw [Text.head?_toDigits zero]
  decide

theorem exponentDigits?_toDigits (exponent : Nat) :
    exponentDigits? (Nat.toDigits 10 exponent) = some exponent := by
  have digits : ∀ character ∈ Nat.toDigits 10 exponent, character.isDigit = true := by
    intro character member
    exact Text.isDigit_of_mem_toDigits member
  rw [exponentDigits?, if_pos (List.all_eq_true.mpr digits)]
  exact Text.readNat?_toDigits (by decide) (by decide) exponent

theorem exponent?_exponentChars (exponent : Int) :
    exponent? (exponentChars exponent) = some exponent := by
  have read := exponentDigits?_toDigits exponent.natAbs
  by_cases negative : exponent < 0
  · have size : -(exponent.natAbs : Int) = exponent := by omega
    have spelling : exponentChars exponent = 'e' :: '-' :: Nat.toDigits 10 exponent.natAbs := by
      rw [exponentChars, signChars, if_pos (decide_eq_true negative)]
      rfl
    rw [spelling, exponent?, read, Option.map_some, size]
  · have size : (exponent.natAbs : Int) = exponent := by omega
    have plain : exponentChars exponent = 'e' :: Nat.toDigits 10 exponent.natAbs := by
      rw [exponentChars, signChars, if_neg (by simp [negative])]
      rfl
    rw [plain]
    cases spelling : Nat.toDigits 10 exponent.natAbs with
    | nil => exact absurd spelling Nat.toDigits_ne_nil
    | cons first rest =>
        have member : first ∈ Nat.toDigits 10 exponent.natAbs := by
          rw [spelling]
          exact List.mem_cons_self
        have digit := Text.isDigit_of_mem_toDigits member
        have noSign : first ≠ '-' ∧ first ≠ '+' := by
          constructor
          · intro same
            subst same
            cases digit
          · intro same
            subst same
            cases digit
        rw [spelling] at read
        rw [← size]
        simp [exponent?, noSign.1, noSign.2, read]

/-- A natural number of 64 bits is read from its digits. -/
theorem numeral?_toDigits {size : Nat} (small : size < sizeLimit) :
    numeral? (Nat.toDigits 10 size) = some (.integer false size) := by
  have spans : spanFraction? [] = some ([], []) := rfl
  have gathered := gatherDigits_eq (Text.readDigits?_toDigits (by decide) (by decide) size) small
  have read := numeral?_eq false Nat.toDigits_ne_nil
    (fun _ member => Text.isDigit_of_mem_toDigits member) length_toDigits_of_zero (by simp) spans
    gathered rfl
  rw [List.append_nil] at read
  exact read

section

variable (negative : Bool) {coefficient : Nat} (small : coefficient < sizeLimit)

include small

/-- Digits around a point are read as the decimal with their places. -/
theorem numeral?_pointed (places : Nat) :
    numeral? (signChars negative ++ Decimal.pointed coefficient (places + 1)) =
      some (.ofDecimal ⟨negative, coefficient, -((places + 1 : Nat) : Int)⟩) := by
  obtain ⟨whole, fraction, written, value, length, nonempty, plain⟩ :=
    pointed_eq coefficient (places + 1)
  rw [if_neg (Nat.succ_ne_zero places)] at written
  have digits := List.forall_mem_append.mp (Text.isDigit_of_readDigits? value)
  rw [Text.readDigits?_append, Option.bind_eq_some_iff] at value
  obtain ⟨leading, front, behind⟩ := value
  have smaller := Nat.lt_of_le_of_lt (Text.le_of_readDigits? behind) small
  have given : fraction ≠ [] := List.ne_nil_of_length_eq_add_one length
  have spans : spanFraction? ('.' :: fraction) = some (fraction, []) :=
    spanDigits?_of_digits given digits.2
  have read := numeral?_eq negative nonempty digits.1 plain (by simp) spans
    (gatherDigits_eq front smaller) (gatherDigits_eq behind small)
  rw [written, read, length]
  simp [given]

/-- An exponent behind digits around a point is read with their places taken off. -/
theorem numeral?_pointed_exponent (places : Nat) (exponent : Int) :
    numeral? (signChars negative ++
        (Decimal.pointed coefficient places ++ exponentChars exponent)) =
      some (.ofDecimal ⟨negative, coefficient, exponent - places⟩) := by
  obtain ⟨whole, fraction, written, value, length, nonempty, plain⟩ :=
    pointed_eq coefficient places
  have digits := List.forall_mem_append.mp (Text.isDigit_of_readDigits? value)
  rw [Text.readDigits?_append, Option.bind_eq_some_iff] at value
  obtain ⟨leading, front, behind⟩ := value
  have smaller := Nat.lt_of_le_of_lt (Text.le_of_readDigits? behind) small
  have ends : ∀ next ∈ (exponentChars exponent).head?, next.isDigit = false := by
    intro next head
    cases head
    rfl
  have given : (exponentChars exponent).isEmpty = false := rfl
  rw [written, List.append_assoc]
  cases places with
  | zero =>
      have spans : spanFraction? (exponentChars exponent) = some ([], exponentChars exponent) :=
        rfl
      rw [List.eq_nil_of_length_eq_zero length] at behind
      have read := numeral?_eq negative nonempty digits.1 plain ends spans
        (gatherDigits_eq front smaller) (gatherDigits_eq behind small)
      rw [if_pos rfl, List.nil_append, read, exponent?_exponentChars, given]
      rfl
  | succ places =>
      have nonempty' : fraction ≠ [] := List.ne_nil_of_length_eq_add_one length
      have spans : spanFraction? ('.' :: (fraction ++ exponentChars exponent)) =
          some (fraction, exponentChars exponent) := spanDigits?_append nonempty' digits.2 ends
      have read := numeral?_eq negative nonempty digits.1 plain (by simp) spans
        (gatherDigits_eq front smaller) (gatherDigits_eq behind small)
      rw [if_neg (Nat.succ_ne_zero places), List.cons_append, read, exponent?_exponentChars, given,
        length]
      rfl

end

/-- The decimal whose digits are printed: one without places that is short enough gets one. -/
def placed (decimal : Decimal) : Decimal :=
  if 0 ≤ decimal.exponent ∧
      decimal.exponent + (Nat.toDigits 10 decimal.coefficient).length ≤ 13 then
    ⟨decimal.negative, decimal.coefficient * 10 ^ (decimal.exponent.toNat + 1), -1⟩
  else decimal

/-- A decimal that gets a place has at most fourteen digits with it. -/
theorem lt_ten_pow_of_short {coefficient exponent : Nat}
    (short : exponent + (Nat.toDigits 10 coefficient).length ≤ 13) :
    coefficient * 10 ^ (exponent + 1) < 10 ^ (14 : Nat) :=
  calc coefficient * 10 ^ (exponent + 1)
    _ < 10 ^ (Nat.toDigits 10 coefficient).length * 10 ^ (exponent + 1) :=
        Nat.mul_lt_mul_of_pos_right (Text.lt_ten_pow_length coefficient)
          (Nat.pow_pos (by decide))
    _ = 10 ^ ((Nat.toDigits 10 coefficient).length + (exponent + 1)) := (Nat.pow_add ..).symm
    _ ≤ 10 ^ 14 := Nat.pow_le_pow_right (by decide) (by omega)

/-- A decimal is read from the word that it is printed as. -/
theorem numeral?_decimalChars {decimal : Decimal} (small : decimal.coefficient < sizeLimit) :
    numeral? (decimalChars decimal) = some (.ofDecimal (placed decimal)) := by
  obtain ⟨negative, coefficient, exponent⟩ := decimal
  dsimp only at small
  unfold decimalChars placed
  dsimp only
  split
  next short =>
      obtain ⟨size, same⟩ := Int.eq_ofNat_of_zero_le short.1
      subst same
      have bounded := lt_ten_pow_of_short (Int.ofNat_le.mp short.2)
      have limit : 10 ^ 14 ≤ sizeLimit := by decide
      exact numeral?_pointed negative (Nat.lt_of_lt_of_le bounded limit) 0
  next =>
      split
      next behind =>
          obtain ⟨places, same⟩ : ∃ places : Nat, exponent = -((places + 1 : Nat) : Int) :=
            ⟨(-exponent).toNat - 1, by omega⟩
          subst same
          rw [Int.neg_neg, Int.toNat_natCast]
          exact numeral?_pointed negative small places
      next =>
          have nonempty : 0 < (Nat.toDigits 10 coefficient).length :=
            List.length_pos_of_ne_nil Nat.toDigits_ne_nil
          rw [numeral?_pointed_exponent negative small]
          have back : exponent + (Nat.toDigits 10 coefficient).length - 1 -
              ((Nat.toDigits 10 coefficient).length - 1 : Nat) = exponent := by omega
          rw [back]

end Json

end LimbAnimation
