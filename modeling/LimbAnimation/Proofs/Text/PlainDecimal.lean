import Mathlib.Data.Nat.Digits.Defs
import LimbAnimation.Proofs.Single.CorrectRounding
import LimbAnimation.Proofs.Text.Affixes
import LimbAnimation.Proofs.Text.Numeral
import LimbAnimation.Proofs.Text.Pieces

/-!
# Plain decimals

A plain decimal has an exact value, whatever the number of its digits.  The texts of those
that are in range are the ones that are read, each as the single nearest to its value.  So
nothing but the sign and the value of a decimal is seen, and zeros in front of it or at its
end behind the point do not count.
-/

namespace LimbAnimation.Text

/-- A decimal as it is written: a sign, digits and, if there is a point, digits behind it. -/
structure PlainDecimal where
  negative : Bool
  whole : List (Fin 10)
  fraction? : Option (List (Fin 10))
  someDigit : whole ++ fraction?.getD [] ≠ []

section Digits

def digitChars (digits : List (Fin 10)) : List Char :=
  digits.map fun digit => digit.val.digitChar

/-- The number with the given digits, the leading one first. -/
def digitsValue (digits : List (Fin 10)) : Nat := Nat.ofDigits 10 (digits.reverse.map Fin.val)

theorem digitsValue_append (front rest : List (Fin 10)) :
    digitsValue (front ++ rest) = digitsValue front * 10 ^ rest.length + digitsValue rest := by
  rw [digitsValue, List.reverse_append, List.map_append, Nat.ofDigits_append, List.length_map,
    List.length_reverse, Nat.add_comm, Nat.mul_comm]
  rfl

theorem digitsValue_zeros (count : Nat) : digitsValue (List.replicate count 0) = 0 := by
  rw [digitsValue, List.reverse_replicate, List.map_replicate]
  exact Nat.ofDigits_replicate_zero

theorem readDigits?_digitChars (value : Nat) (digits : List (Fin 10)) :
    readDigits? 10 value (digitChars digits) =
      some (value * 10 ^ digits.length + digitsValue digits) := by
  induction digits generalizing value with
  | nil => simp [digitChars, digitsValue, readDigits?]
  | cons digit rest ih =>
      have first : digitIn? 10 digit.val.digitChar = some digit.val :=
        digitIn?_digitChar digit.isLt (by decide)
      have alone : digitsValue [digit] = digit.val := Nat.ofDigits_singleton
      have parted := digitsValue_append [digit] rest
      rw [List.singleton_append, alone] at parted
      show (digitIn? 10 digit.val.digitChar).bind _ = _
      rw [first, parted]
      show readDigits? 10 _ (digitChars rest) = _
      rw [ih, List.length_cons, Nat.pow_succ]
      congr 1
      ring

theorem digitChar_eq_ofNat : ∀ digit : Fin 10, digit.val.digitChar = Char.ofNat (48 + digit) := by
  decide

theorem isDigit_digitChar : ∀ digit : Fin 10, digit.val.digitChar.isDigit = true := by decide

theorem isDigit_of_mem_digitChars {digits : List (Fin 10)} {character : Char}
    (member : character ∈ digitChars digits) : character.isDigit = true := by
  obtain ⟨digit, _, rfl⟩ := List.mem_map.mp member
  exact isDigit_digitChar digit

theorem exists_digitChar {character : Char} (isDigit : character.isDigit = true) :
    ∃ digit : Fin 10, digit.val.digitChar = character := by
  obtain ⟨atLeast, atMost⟩ := isDigit_iff.mp isDigit
  have low : 48 ≤ character.toNat := atLeast
  have high : character.toNat ≤ 57 := atMost
  refine ⟨⟨character.toNat - 48, by omega⟩, ?_⟩
  rw [digitChar_eq_ofNat, Nat.add_sub_cancel' low, Char.ofNat_toNat]

theorem exists_digitChars {text : List Char}
    (allDigits : ∀ character ∈ text, character.isDigit = true) :
    ∃ digits, digitChars digits = text := by
  induction text with
  | nil => exact ⟨[], rfl⟩
  | cons first rest ih =>
      rw [List.forall_mem_cons] at allDigits
      obtain ⟨digit, rfl⟩ := exists_digitChar allDigits.1
      obtain ⟨digits, rfl⟩ := ih allDigits.2
      exact ⟨digit :: digits, rfl⟩

theorem digitChars_append (front rest : List (Fin 10)) :
    digitChars (front ++ rest) = digitChars front ++ digitChars rest := List.map_append

/-- No digit is a point. -/
theorem digitChars_not_point (digits : List (Fin 10)) :
    ∀ character ∈ digitChars digits, (character == '.') = false := by
  intro character member
  apply beq_false_of_ne
  rintro rfl
  exact absurd (isDigit_of_mem_digitChars member) (by decide)

theorem readNat?_digitChars {digits : List (Fin 10)} (nonempty : digits ≠ []) :
    readNat? 10 (digitChars digits) = some (digitsValue digits) := by
  have written : digitChars digits ≠ [] := fun empty => nonempty (List.map_eq_nil_iff.mp empty)
  rw [readNat?, if_neg (by simpa using written), readDigits?_digitChars, Nat.zero_mul,
    Nat.zero_add]

theorem readNat?_eq_some_iff {text : List Char} {number : Nat} :
    readNat? 10 text = some number ↔
      ∃ digits : List (Fin 10), digits ≠ [] ∧ digitsValue digits = number ∧
        text = digitChars digits := by
  constructor
  · intro read
    obtain ⟨nonempty, allDigits⟩ := isDigit_of_readNat? read
    obtain ⟨digits, rfl⟩ := exists_digitChars allDigits
    have someDigit : digits ≠ [] := fun empty => nonempty (congrArg digitChars empty)
    rw [readNat?_digitChars someDigit, Option.some.injEq] at read
    exact ⟨digits, someDigit, read, rfl⟩
  · rintro ⟨digits, someDigit, rfl, rfl⟩
    exact readNat?_digitChars someDigit

/-- What is read below a limit are digits, after a plus sign or without one. -/
theorem readBounded?_eq_some_iff {limit number : Nat} {text : List Char} :
    readBounded? 10 limit text = some number ↔
      (∃ digits : List (Fin 10), digits ≠ [] ∧ digitsValue digits = number ∧
        (text = digitChars digits ∨ text = '+' :: digitChars digits)) ∧ number < limit := by
  rw [readBounded?, Option.filter_eq_some_iff, decide_eq_true_iff, readNat?_eq_some_iff]
  refine and_congr_left fun _ => exists_congr fun digits => and_congr_right fun _ =>
    and_congr_right fun _ => ?_
  cases sign : dropPrefix? ['+'] text with
  | some rest =>
      rw [dropPrefix?_eq_some_iff.mp sign, List.singleton_append, Option.getD_some]
      have unsigned : '+' :: rest ≠ digitChars digits := by
        intro same
        have isDigit := isDigit_of_mem_digitChars (same ▸ List.mem_cons_self)
        exact absurd isDigit (by decide)
      simp [unsigned]
  | none =>
      have signed : text ≠ '+' :: digitChars digits := by
        intro same
        rw [dropPrefix?_eq_some_iff.mpr same] at sign
        cases sign
      simp [signed]

end Digits

namespace PlainDecimal

variable (written : PlainDecimal)

/-- The digits behind the point. -/
def places : List (Fin 10) := written.fraction?.getD []

/-- The text behind the sign. -/
def body : List Char :=
  match written.fraction? with
  | none => digitChars written.whole
  | some fraction => digitChars written.whole ++ '.' :: digitChars fraction

def text : List Char := if written.negative then '-' :: written.body else written.body

/-- The exact value. -/
def value : ℚ :=
  Single.signed written.negative
    (digitsValue written.whole + digitsValue written.places / 10 ^ written.places.length)

/-- The same number with more zeros in front and, where there is a point, at the end. -/
def padded (leading trailing : Nat) : PlainDecimal where
  negative := written.negative
  whole := List.replicate leading 0 ++ written.whole
  fraction? := written.fraction?.map fun fraction => fraction ++ List.replicate trailing 0
  someDigit := by
    intro empty
    apply written.someDigit
    obtain ⟨front, back⟩ := List.append_eq_nil_iff.mp empty
    rw [(List.append_eq_nil_iff.mp front).2]
    cases point : written.fraction? with
    | none => rfl
    | some fraction =>
        rw [point] at back
        exact (List.append_eq_nil_iff.mp back).1

/-- The decimal that is denoted, with the digits on both sides of the point as coefficient. -/
def decimal : Decimal :=
  ⟨written.negative, digitsValue (written.whole ++ written.places), -(written.places.length : Int)⟩

section Reading

theorem eq_of_splitSign (text : List Char) :
    (if (splitSign text).1 then '-' :: (splitSign text).2 else (splitSign text).2) = text := by
  unfold splitSign
  split <;> rfl

theorem splitSign_body : splitSign written.body = (false, written.body) := by
  have other (digit : Fin 10) : digit.val.digitChar ≠ '-' := by
    intro same
    exact absurd (same ▸ isDigit_digitChar digit) (by decide)
  have someDigit := written.someDigit
  unfold body
  cases whole : written.whole with
  | cons digit rest =>
      cases written.fraction? with
      | none => exact splitSign_of_ne (other digit) _
      | some fraction => exact splitSign_of_ne (other digit) _
  | nil =>
      cases point : written.fraction? with
      | none =>
          rw [whole, point] at someDigit
          exact absurd rfl someDigit
      | some fraction => exact splitSign_of_ne (by decide) _

theorem splitSign_text : splitSign written.text = (written.negative, written.body) := by
  unfold text
  cases written.negative with
  | false => exact written.splitSign_body
  | true => rfl

theorem pieces_body :
    pieces (· == '.') written.body =
      digitChars written.whole :: (written.fraction?.map digitChars).toList := by
  unfold body
  cases written.fraction? with
  | none => exact pieces_of_none (digitChars_not_point _)
  | some fraction =>
      show pieces (· == '.') (digitChars written.whole ++ '.' :: digitChars fraction) = _
      rw [pieces_append_cons (digitChars_not_point _) (beq_self_eq_true '.'),
        pieces_of_none (digitChars_not_point _)]
      rfl

theorem readDecimal?_text : readDecimal? written.text = some written.decimal := by
  have someDigit := written.someDigit
  unfold readDecimal? decimal places
  rw [splitSign_text]
  simp only [pieces_body]
  cases point : written.fraction? with
  | none =>
      rw [point, Option.getD_none, List.append_nil] at someDigit
      show (readNat? 10 (digitChars written.whole)).map _ = _
      rw [readNat?_digitChars someDigit, Option.getD_none, List.append_nil]
      rfl
  | some fraction =>
      rw [point, Option.getD_some] at someDigit
      show (readNat? 10 (digitChars written.whole ++ digitChars fraction)).map _ = _
      rw [← digitChars_append, readNat?_digitChars someDigit, Option.getD_some, digitChars,
        List.length_map]
      rfl

/-- Only plain decimals are read. -/
theorem exists_text_eq {text : List Char} {decimal : Decimal}
    (read : readDecimal? text = some decimal) : ∃ written : PlainDecimal, written.text = text := by
  have signed := eq_of_splitSign text
  have joined := @intercalate_pieces Char (· == '.') '.' (fun _ => eq_of_beq) (splitSign text).2
  rw [readDecimal?] at read
  dsimp only at read
  split at read
  next whole cut =>
      obtain ⟨value, number, _⟩ := Option.map_eq_some_iff.mp read
      obtain ⟨digits, someDigit, _, rfl⟩ := readNat?_eq_some_iff.mp number
      rw [cut, List.intercalate_singleton] at joined
      refine ⟨⟨(splitSign text).1, digits, none, ?_⟩, ?_⟩
      · rwa [Option.getD_none, List.append_nil]
      · rw [← joined] at signed
        exact signed
  next whole fraction cut =>
      obtain ⟨value, number, _⟩ := Option.map_eq_some_iff.mp read
      obtain ⟨nonempty, allDigits⟩ := isDigit_of_readNat? number
      obtain ⟨wholeDigits, fractionDigits⟩ := List.forall_mem_append.mp allDigits
      obtain ⟨digits, rfl⟩ := exists_digitChars wholeDigits
      obtain ⟨places, rfl⟩ := exists_digitChars fractionDigits
      rw [cut, List.intercalate_cons_cons, List.intercalate_singleton, List.append_assoc,
        List.singleton_append] at joined
      refine ⟨⟨(splitSign text).1, digits, some places, ?_⟩, ?_⟩
      · intro empty
        rw [Option.getD_some] at empty
        rw [← digitChars_append, empty] at nonempty
        exact nonempty rfl
      · rw [← joined] at signed
        exact signed
  next => cases read

end Reading

section Value

theorem value_eq :
    written.value = Single.signed written.negative
      ((digitsValue (written.whole ++ written.places) : ℕ) /
        ((10 ^ written.places.length : ℕ) : ℚ)) := by
  rw [value, digitsValue_append]
  push_cast
  rw [add_div, mul_div_cancel_right₀ _ (by positivity)]

theorem abs_value :
    |written.value| = (digitsValue (written.whole ++ written.places) : ℕ) /
      ((10 ^ written.places.length : ℕ) : ℚ) := by
  rw [value_eq, Single.abs_signed, abs_of_nonneg (by positivity)]

theorem nearest_decimal :
    written.decimal.nearest =
      .ofRatio written.negative (digitsValue (written.whole ++ written.places))
        (10 ^ written.places.length) := by
  unfold Decimal.nearest Decimal.numerator Decimal.denominator decimal
  dsimp only
  rw [Int.neg_neg, Int.toNat_natCast, Int.toNat_neg_natCast, Nat.pow_zero, Nat.mul_one]

/-- A plain decimal in range is read as the single nearest to its value that has its sign. -/
theorem readSingle?_text_iff {number : Single} :
    readSingle? written.text = some number ↔
      |written.value| < Single.overflowBound ∧ Single.IsNearest written.value number ∧
        number.isNegative = written.negative := by
  rw [abs_value, value_eq, ← Single.ofRatio_eq_iff (Nat.pow_pos (by decide)), ← nearest_decimal,
    readSingle?, readDecimal?_text, Option.map_some, Option.filter_eq_some_iff, Option.some.injEq]

theorem exists_readSingle?_text_iff :
    (∃ number, readSingle? written.text = some number) ↔
      |written.value| < Single.overflowBound := by
  constructor
  · rintro ⟨number, read⟩
    exact (written.readSingle?_text_iff.mp read).1
  · intro inRange
    rw [abs_value, ← Single.ofRatio_isFinite_iff (Nat.pow_pos (by decide)), ← nearest_decimal]
      at inRange
    refine ⟨written.decimal.nearest, ?_⟩
    rw [readSingle?, readDecimal?_text, Option.map_some, Option.filter_eq_some_iff]
    exact ⟨rfl, inRange⟩

theorem padded_value (leading trailing : Nat) :
    (written.padded leading trailing).value = written.value := by
  have whole : digitsValue (List.replicate leading 0 ++ written.whole) =
      digitsValue written.whole := by
    rw [digitsValue_append, digitsValue_zeros, Nat.zero_mul, Nat.zero_add]
  unfold value places padded
  dsimp only
  rw [whole]
  cases written.fraction? with
  | none => rfl
  | some fraction =>
      rw [Option.map_some, Option.getD_some, Option.getD_some, digitsValue_append,
        digitsValue_zeros, Nat.add_zero, List.length_append, List.length_replicate, pow_add]
      push_cast
      rw [mul_div_mul_right _ _ (by positivity)]

end Value

end PlainDecimal

section Singles

/-- Decimals are told apart by their grammar and rounded once.  A text is read when it is a plain
decimal that does not reach halfway from the largest single to the first number out of range,
and then as the single that is nearest to its value, ties going to an even last bit, and that
has its sign.  So a larger decimal is not read as a smaller number, and zeros in front and
behind the last place do not count. -/
theorem decimals_are_rounded_once :
    (∀ text : List Char, (∃ number, readSingle? text = some number) ↔
      ∃ written : PlainDecimal, written.text = text ∧ |written.value| < Single.overflowBound) ∧
    (∀ (written : PlainDecimal) (number : Single), readSingle? written.text = some number ↔
      |written.value| < Single.overflowBound ∧ Single.IsNearest written.value number ∧
        number.isNegative = written.negative) ∧
    (∀ (lower upper : PlainDecimal) (low high : Single), lower.value ≤ upper.value →
      readSingle? lower.text = some low → readSingle? upper.text = some high → low ≤ high) ∧
    ∀ (written : PlainDecimal) (leading trailing : Nat),
      readSingle? (written.padded leading trailing).text = readSingle? written.text := by
  refine ⟨fun text => ⟨?_, ?_⟩, fun written number => written.readSingle?_text_iff, ?_, ?_⟩
  · rintro ⟨number, read⟩
    obtain ⟨decimal, denotes, _⟩ :=
      Option.map_eq_some_iff.mp (Option.filter_eq_some_iff.mp read).1
    obtain ⟨written, rfl⟩ := PlainDecimal.exists_text_eq denotes
    exact ⟨written, rfl, written.exists_readSingle?_text_iff.mp ⟨number, read⟩⟩
  · rintro ⟨written, rfl, inRange⟩
    exact written.exists_readSingle?_text_iff.mpr inRange
  · intro lower upper low high ordered lowRead highRead
    obtain ⟨inRange, lowNearest, _⟩ := lower.readSingle?_text_iff.mp lowRead
    obtain ⟨_, highNearest, _⟩ := upper.readSingle?_text_iff.mp highRead
    exact lowNearest.le highNearest inRange ordered
  · intro written leading trailing
    apply Option.ext
    intro number
    rw [PlainDecimal.readSingle?_text_iff, PlainDecimal.readSingle?_text_iff,
      PlainDecimal.padded_value]
    rfl

def minusTenth : PlainDecimal := ⟨true, [0], some [1], by decide⟩

def quarter : PlainDecimal := ⟨false, [], some [2, 5], by decide⟩

theorem minusTenth_value : minusTenth.value = -(1 / 10) := by
  norm_num [minusTenth, PlainDecimal.value, PlainDecimal.places, Single.signed, digitsValue]

theorem quarter_value : quarter.value = 1 / 4 := by
  norm_num [quarter, PlainDecimal.value, PlainDecimal.places, Single.signed, digitsValue,
    Nat.ofDigits]

theorem minus_tenth_is_below_quarter :
    minusTenth.value ≤ quarter.value ∧
      ∃ low high, readSingle? "-0.1".toList = some low ∧ readSingle? ".25".toList = some high ∧
        low ≤ high ∧ readSingle? "-000.100".toList = some low := by
  obtain ⟨accepted, _, monotone, padded⟩ := decimals_are_rounded_once
  have ordered : minusTenth.value ≤ quarter.value := by
    rw [minusTenth_value, quarter_value]
    norm_num
  have lowInRange : |minusTenth.value| < Single.overflowBound := by
    norm_num [minusTenth_value, Single.overflowBound]
  have highInRange : |quarter.value| < Single.overflowBound := by
    norm_num [quarter_value, Single.overflowBound]
  obtain ⟨low, lowRead⟩ := (accepted "-0.1".toList).mpr ⟨minusTenth, rfl, lowInRange⟩
  obtain ⟨high, highRead⟩ := (accepted ".25".toList).mpr ⟨quarter, rfl, highInRange⟩
  exact ⟨ordered, low, high, lowRead, highRead,
    monotone minusTenth quarter low high ordered lowRead highRead,
    (padded minusTenth 2 2).trans lowRead⟩

-- Halfway to the first number out of range, and a last place before.

example : readSingle? "340282356779733661637539395458142568448".toList = none := by decide

example : readSingle? "340282356779733661637539395458142568447.9".toList =
    some (.finite false Single.largestUnits Single.fits_largestUnits) := by decide

end Singles

end LimbAnimation.Text
