import LimbAnimation.Proofs.Single.SameNumber
import LimbAnimation.Single.Bits

/-!
# The total order of singles

Bit patterns are numbered so that numbers ascend as on the line.  Where comparisons see no
difference the total order still sees one: the negative zero comes before the positive one,
and NaNs stand at both ends, by their sign and then by their payload.
-/

namespace LimbAnimation.Single

/-- Which one of two different singles comes first in the total order. -/
inductive ComesBefore : Single → Single → Prop where
  | smaller {left right : Single} : left < right → ComesBefore left right
  | zeros : ComesBefore (zeroOf true) (zeroOf false)
  | negativeNaN {payload inRange} {number : Single} : number.isNaN = false →
      ComesBefore (nan true payload inRange) number
  | positiveNaN {payload inRange} {number : Single} : number.isNaN = false →
      ComesBefore number (nan false payload inRange)
  | oppositeNaNs {payload inRange payload' inRange'} :
      ComesBefore (nan true payload inRange) (nan false payload' inRange')
  | negativePayloads {payload inRange payload' inRange'} : payload' < payload →
      ComesBefore (nan true payload inRange) (nan true payload' inRange')
  | positivePayloads {payload inRange payload' inRange'} : payload < payload' →
      ComesBefore (nan false payload inRange) (nan false payload' inRange')

section Magnitudes

/-- A magnitude is its leading digits, shifted, and its bits are the shift and these digits.
With a shift there are 24 of them. -/
theorem exists_leading_digits {magnitude : Nat} (short : Short 24 magnitude) :
    ∃ leading shift, magnitude = leading * 2 ^ shift ∧
      magnitudeBits magnitude = shift * 2 ^ 23 + leading ∧ leading < 2 ^ 24 ∧
      (0 < shift → 2 ^ 23 ≤ leading) := by
  have below : magnitude < 2 ^ (magnitude.log2 + 1) := Nat.lt_log2_self
  have above (some : 0 < magnitude.log2 - 23) :
      2 ^ 23 * 2 ^ (magnitude.log2 - 23) ≤ magnitude := by
    have nonzero : magnitude ≠ 0 := by
      rintro rfl
      simp at some
    have leading := Nat.log2_self_le nonzero
    rwa [show magnitude.log2 = 23 + (magnitude.log2 - 23) by omega, Nat.pow_add] at leading
  have positive := Nat.two_pow_pos (magnitude.log2 - 23)
  rcases short.multiple_or_below (magnitude.log2 - 23) with ⟨leading, whole⟩ | ⟨some, tooSmall⟩
  · refine ⟨leading, magnitude.log2 - 23, whole, ?_, ?_, fun some => ?_⟩
    · have quotient : magnitude / 2 ^ (magnitude.log2 - 23) = leading :=
        Nat.div_eq_of_eq_mul_left positive whole
      rw [magnitudeBits, quotient]
    · refine Nat.lt_of_mul_lt_mul_right (a := 2 ^ (magnitude.log2 - 23)) ?_
      rw [← whole, ← Nat.pow_add]
      exact Nat.lt_of_lt_of_le below (Nat.pow_le_pow_right (by decide) (by omega))
    · refine Nat.le_of_mul_le_mul_right (c := 2 ^ (magnitude.log2 - 23)) ?_ positive
      rw [← whole]
      exact above some
  · have enough := above some
    rw [Nat.pow_add] at tooSmall
    omega

/-- Larger magnitudes have larger bits. -/
theorem magnitudeBits_lt_magnitudeBits {magnitude magnitude' : Nat} (short : Short 24 magnitude)
    (short' : Short 24 magnitude') (less : magnitude < magnitude') :
    magnitudeBits magnitude < magnitudeBits magnitude' := by
  obtain ⟨leading, shift, whole, bits, digits, full⟩ := exists_leading_digits short
  obtain ⟨leading', shift', whole', bits', digits', full'⟩ := exists_leading_digits short'
  rw [bits, bits']
  rcases Nat.lt_trichotomy shift shift' with before | rfl | behind
  · have leads := full' (by omega)
    omega
  · rw [whole, whole'] at less
    have smaller := Nat.lt_of_mul_lt_mul_right less
    omega
  · -- With the larger shift the magnitude would be the larger one.
    have leads := full (by omega)
    have larger : magnitude' < magnitude := by
      calc magnitude' = leading' * 2 ^ shift' := whole'
        _ < 2 ^ 24 * 2 ^ shift' := Nat.mul_lt_mul_of_pos_right digits' (Nat.two_pow_pos _)
        _ = 2 ^ 23 * 2 ^ (shift' + 1) := by rw [Nat.pow_succ 2 shift', ← Nat.mul_assoc]; omega
        _ ≤ leading * 2 ^ shift :=
          Nat.mul_le_mul leads (Nat.pow_le_pow_right (by decide) behind)
        _ = magnitude := whole.symm
    omega

end Magnitudes

section Keys

variable {left right value : Single}

theorem short_unitsLimit : Short 24 unitsLimit := ⟨2 ^ 23, 254, by decide, by decide⟩

theorem magnitudeBits_unitsLimit : magnitudeBits unitsLimit = 255 * 2 ^ 23 := by decide

/-- The infinities are numbered as if their magnitude were the first one out of range. -/
theorem exists_magnitude (isNumber : value.isNaN = false) :
    ∃ magnitude, Short 24 magnitude ∧ magnitude ≤ unitsLimit ∧
      value.rank? = some (signedUnits value.isNegative magnitude) ∧
      value.unsignedBits = magnitudeBits magnitude := by
  cases value with
  | nan negative payload inRange => cases isNumber
  | infinite negative =>
      exact ⟨unitsLimit, short_unitsLimit, Nat.le_refl _, rfl, magnitudeBits_unitsLimit.symm⟩
  | finite negative magnitude fits =>
      exact ⟨magnitude, fits.short, Nat.le_of_lt fits.bounded, rfl, rfl⟩

theorem unsignedBits_le (isNumber : value.isNaN = false) :
    value.unsignedBits ≤ 255 * 2 ^ 23 := by
  obtain ⟨magnitude, short, bounded, _, bits⟩ := exists_magnitude isNumber
  rw [bits, ← magnitudeBits_unitsLimit]
  rcases Nat.lt_or_eq_of_le bounded with less | rfl
  · exact Nat.le_of_lt (magnitudeBits_lt_magnitudeBits short short_unitsLimit less)
  · exact Nat.le_refl _

theorem totalKey_lt_of_lt (smaller : left < right) : left.totalKey < right.totalKey := by
  obtain ⟨low, high, leftRank, rightRank, less⟩ := lt_iff.mp smaller
  obtain ⟨magnitude, short, _, ranked, bits⟩ := exists_magnitude (isNaN_of_rank leftRank)
  obtain ⟨magnitude', short', _, ranked', bits'⟩ := exists_magnitude (isNaN_of_rank rightRank)
  cases leftRank.symm.trans ranked
  cases rightRank.symm.trans ranked'
  unfold totalKey
  cases leftSign : left.isNegative <;> cases rightSign : right.isNegative <;>
    simp only [signedUnits, leftSign, rightSign, if_true, if_false, Bool.false_eq_true] at less ⊢
  · have ordered := magnitudeBits_lt_magnitudeBits short short' (by omega)
    omega
  · omega
  · omega
  · have ordered := magnitudeBits_lt_magnitudeBits short' short (by omega)
    omega

theorem totalKey_bounds (isNumber : value.isNaN = false) :
    -(255 * 2 ^ (23 : Nat)) - 1 ≤ value.totalKey ∧ value.totalKey ≤ 255 * 2 ^ (23 : Nat) := by
  have bounded := unsignedBits_le isNumber
  unfold totalKey
  split <;> omega

theorem totalKey_negativeNaN (payload : Nat) (inRange : 0 < payload ∧ payload < 2 ^ 23) :
    (nan true payload inRange).totalKey = -((255 * 2 ^ 23 + payload : Nat) : Int) - 1 := rfl

theorem totalKey_positiveNaN (payload : Nat) (inRange : 0 < payload ∧ payload < 2 ^ 23) :
    (nan false payload inRange).totalKey = ((255 * 2 ^ 23 + payload : Nat) : Int) := rfl

theorem ComesBefore.totalKey_lt (first : ComesBefore left right) :
    left.totalKey < right.totalKey := by
  cases first with
  | smaller smaller => exact totalKey_lt_of_lt smaller
  | zeros => decide
  | @negativeNaN payload inRange _ isNumber =>
      have bounds := totalKey_bounds isNumber
      rw [totalKey_negativeNaN]
      omega
  | @positiveNaN payload inRange _ isNumber =>
      have bounds := totalKey_bounds isNumber
      rw [totalKey_positiveNaN]
      omega
  | oppositeNaNs =>
      rw [totalKey_negativeNaN, totalKey_positiveNaN]
      omega
  | negativePayloads less =>
      rw [totalKey_negativeNaN, totalKey_negativeNaN]
      omega
  | positivePayloads less =>
      rw [totalKey_positiveNaN, totalKey_positiveNaN]
      omega

theorem comesBefore_trichotomy_numbers (leftNumber : left.isNaN = false)
    (rightNumber : right.isNaN = false) :
    ComesBefore left right ∨ left = right ∨ ComesBefore right left := by
  obtain ⟨low, leftRank⟩ := exists_rank leftNumber
  obtain ⟨high, rightRank⟩ := exists_rank rightNumber
  rcases Int.lt_trichotomy low high with less | rfl | greater
  · exact .inl (.smaller (lt_iff.mpr ⟨low, high, leftRank, rightRank, less⟩))
  · rcases SameNumber.cases (leftRank.trans rightRank.symm) with same | ⟨isNaN, _⟩ | ⟨zero, zero'⟩
    · exact .inr (.inl same)
    · rw [leftNumber] at isNaN
      cases isNaN
    · obtain ⟨negative, rfl⟩ := zero.eq_zeroOf
      obtain ⟨negative', rfl⟩ := zero'.eq_zeroOf
      cases negative <;> cases negative'
      · exact .inr (.inl rfl)
      · exact .inr (.inr .zeros)
      · exact .inl .zeros
      · exact .inr (.inl rfl)
  · exact .inr (.inr (.smaller (lt_iff.mpr ⟨high, low, rightRank, leftRank, greater⟩)))

theorem exists_eq_nan (isNaN : value.isNaN = true) :
    ∃ negative payload inRange, value = nan negative payload inRange := by
  cases value with
  | nan negative payload inRange => exact ⟨negative, payload, inRange, rfl⟩
  | infinite negative => cases isNaN
  | finite negative magnitude fits => cases isNaN

theorem comesBefore_of_isNaN_of_number (isNaN : left.isNaN = true)
    (rightNumber : right.isNaN = false) : ComesBefore left right ∨ ComesBefore right left := by
  obtain ⟨negative, payload, inRange, rfl⟩ := exists_eq_nan isNaN
  cases negative with
  | true => exact .inl (.negativeNaN rightNumber)
  | false => exact .inr (.positiveNaN rightNumber)

/-- Of two singles one comes first, or they are the same. -/
theorem comesBefore_trichotomy (left right : Single) :
    ComesBefore left right ∨ left = right ∨ ComesBefore right left := by
  cases leftNaN : left.isNaN with
  | false =>
      cases rightNaN : right.isNaN with
      | false => exact comesBefore_trichotomy_numbers leftNaN rightNaN
      | true =>
          rcases comesBefore_of_isNaN_of_number rightNaN leftNaN with second | first
          · exact .inr (.inr second)
          · exact .inl first
  | true =>
      cases rightNaN : right.isNaN with
      | false => exact (comesBefore_of_isNaN_of_number leftNaN rightNaN).imp_right .inr
      | true =>
          obtain ⟨negative, payload, inRange, rfl⟩ := exists_eq_nan leftNaN
          obtain ⟨negative', payload', inRange', rfl⟩ := exists_eq_nan rightNaN
          cases negative <;> cases negative'
          · rcases Nat.lt_trichotomy payload payload' with less | rfl | greater
            · exact .inl (.positivePayloads less)
            · exact .inr (.inl rfl)
            · exact .inr (.inr (.positivePayloads greater))
          · exact .inr (.inr .oppositeNaNs)
          · exact .inl .oppositeNaNs
          · rcases Nat.lt_trichotomy payload payload' with less | rfl | greater
            · exact .inr (.inr (.negativePayloads less))
            · exact .inr (.inl rfl)
            · exact .inl (.negativePayloads greater)

theorem totalKey_lt_iff : left.totalKey < right.totalKey ↔ ComesBefore left right := by
  constructor
  · intro less
    rcases comesBefore_trichotomy left right with first | rfl | second
    · exact first
    · exact absurd less (Int.lt_irrefl _)
    · have greater := second.totalKey_lt
      omega
  · exact ComesBefore.totalKey_lt

instance : DecidableRel ComesBefore := fun _ _ => decidable_of_iff _ totalKey_lt_iff

theorem ComesBefore.irrefl (value : Single) : ¬ ComesBefore value value :=
  fun first => Int.lt_irrefl _ first.totalKey_lt

/-- Among numbers the total order goes beyond comparisons for zeros only. -/
theorem ComesBefore.of_numbers (first : ComesBefore left right) (leftNumber : left.isNaN = false)
    (rightNumber : right.isNaN = false) :
    left < right ∨ left = zeroOf true ∧ right = zeroOf false := by
  cases first with
  | smaller smaller => exact .inl smaller
  | zeros => exact .inr ⟨rfl, rfl⟩
  | negativeNaN _ => cases leftNumber
  | positiveNaN _ => cases rightNumber
  | oppositeNaNs => cases leftNumber
  | negativePayloads _ => cases leftNumber
  | positivePayloads _ => cases leftNumber

theorem sameNumber_zeroOf (negative negative' : Bool) :
    SameNumber (zeroOf negative) (zeroOf negative') := by
  show some (signedUnits negative 0) = some (signedUnits negative' 0)
  rw [signedUnits_zero, signedUnits_zero]

/-- Different singles stand at different places. -/
theorem totalKey_inj : left.totalKey = right.totalKey ↔ left = right := by
  constructor
  · intro same
    rcases comesBefore_trichotomy left right with first | equal | second
    · have less := first.totalKey_lt
      omega
    · exact equal
    · have less := second.totalKey_lt
      omega
  · rintro rfl
    rfl

end Keys

end LimbAnimation.Single
