import LimbAnimation.Proofs.Single.Monotone
import LimbAnimation.Proofs.Single.UnitInterval
import LimbAnimation.Single.Trigonometry

/-!
# The same number

Two singles are the same number when they stand at the same place of the line: zeros of
both signs are, and so are all NaNs.  No operation tells the same numbers apart, but for a
division by zero, and a change of sign goes through sums, products and the sine.
-/

namespace LimbAnimation.Single

/-- Numerically the same: the sign of a zero does not count, and one NaN is like another. -/
def SameNumber (left right : Single) : Prop := left.rank? = right.rank?

variable {left right left' right' value zero : Single}

theorem rank?_eq_none_iff : value.rank? = none ↔ value.isNaN = true := by
  cases value <;> simp [rank?, isNaN]

/-- Numbers are the same when they are numerically equal. -/
theorem sameNumber_iff :
    SameNumber left right ↔ left.equals right = true ∨ left.isNaN = true ∧ right.isNaN = true := by
  rw [equals_iff, ← rank?_eq_none_iff, ← rank?_eq_none_iff, SameNumber]
  cases left.rank? with
  | none => simp [eq_comm]
  | some rank => simp [eq_comm]

theorem FiniteAt.sameNumber {rank : Int} (leftAt : FiniteAt left rank)
    (rightAt : FiniteAt right rank) : SameNumber left right :=
  leftAt.ranked.trans rightAt.ranked.symm

theorem FiniteAt.eq_zeroOf (zeroAt : FiniteAt zero 0) : ∃ negative, zero = zeroOf negative := by
  obtain ⟨negative, magnitude, fits, rfl, nothing⟩ := zeroAt.exists_eq
  obtain rfl : 0 = magnitude := by
    rw [← natAbs_signedUnits negative magnitude, ← nothing, Int.natAbs_zero]
  exact ⟨negative, rfl⟩

theorem sign_of_limit : ∀ {negative negative' : Bool},
    signedUnits negative unitsLimit = signedUnits negative' unitsLimit → negative = negative' := by
  decide

theorem sameNumber_of_isNaN (leftNaN : left.isNaN = true) (rightNaN : right.isNaN = true) :
    SameNumber left right :=
  (rank?_eq_none_iff.mpr leftNaN).trans (rank?_eq_none_iff.mpr rightNaN).symm

namespace SameNumber

theorem refl (value : Single) : SameNumber value value := Eq.refl value.rank?

theorem symm (same : SameNumber left right) : SameNumber right left := Eq.symm same

theorem trans (first : SameNumber left value) (second : SameNumber value right) :
    SameNumber left right := Eq.trans first second

/-- Different singles are the same number only where no number but zero is concerned. -/
theorem cases (same : SameNumber left right) :
    left = right ∨ (left.isNaN = true ∧ right.isNaN = true) ∨
      (FiniteAt left 0 ∧ FiniteAt right 0) := by
  cases left with
  | nan negative payload inRange => exact .inr (.inl ⟨rfl, rank?_eq_none_iff.mp same.symm⟩)
  | infinite negative =>
      cases right with
      | nan negative' payload inRange => cases same
      | infinite negative' => exact .inl (congrArg infinite (sign_of_limit (Option.some.inj same)))
      | finite negative' magnitude fits =>
          have magnitudes := congrArg Int.natAbs (Option.some.inj same)
          rw [natAbs_signedUnits, natAbs_signedUnits] at magnitudes
          exact absurd fits.bounded (magnitudes ▸ Nat.lt_irrefl _)
  | finite negative magnitude fits =>
      have leftAt := finiteAt_finite negative magnitude fits
      have rightAt : FiniteAt right (signedUnits negative magnitude) := ⟨same.symm, leftAt.fits⟩
      by_cases zero : signedUnits negative magnitude = 0
      · exact .inr (.inr ⟨zero ▸ leftAt, zero ▸ rightAt⟩)
      · exact .inl (leftAt.eq rightAt zero)

theorem isNaN_eq (same : SameNumber left right) : left.isNaN = right.isNaN := by
  rw [Bool.eq_iff_iff, ← rank?_eq_none_iff, ← rank?_eq_none_iff, same]

theorem lt_iff_lt (same : SameNumber left left') (same' : SameNumber right right') :
    left < right ↔ left' < right' := by
  rw [Single.lt_iff, Single.lt_iff, same, same']

theorem le_iff_le (same : SameNumber left left') (same' : SameNumber right right') :
    left ≤ right ↔ left' ≤ right' := by
  rw [Single.le_iff, Single.le_iff, same, same']

theorem equals_eq (same : SameNumber left left') (right : Single) :
    left.equals right = left'.equals right := by
  rw [Bool.eq_iff_iff, equals_iff, equals_iff, same]

theorem neg (same : SameNumber left right) : SameNumber (-left) (-right) := by
  rcases same.cases with rfl | ⟨leftNaN, rightNaN⟩ | ⟨leftAt, rightAt⟩
  · exact refl _
  · exact sameNumber_of_isNaN (by rwa [neg_isNaN]) (by rwa [neg_isNaN])
  · exact leftAt.neg.sameNumber rightAt.neg

theorem clampUnit (same : SameNumber left right) :
    SameNumber left.clampUnit right.clampUnit := by
  have kept : ∀ {zero : Single}, FiniteAt zero 0 → zero.clampUnit = zero := fun zeroAt =>
    clampUnit_of_inUnit (inUnit_iff.mpr ⟨0, zeroAt.ranked, by decide⟩)
  rcases same.cases with rfl | ⟨leftNaN, rightNaN⟩ | ⟨leftAt, rightAt⟩
  · exact refl _
  · exact sameNumber_of_isNaN (by rwa [clampUnit_isNaN]) (by rwa [clampUnit_isNaN])
  · rw [kept leftAt, kept rightAt]
    exact leftAt.sameNumber rightAt

end SameNumber

section Sums

theorem add_comm (left right : Single) : left + right = right + left := by
  show add left right = add right left
  cases left with
  | nan negative payload inRange => cases right <;> rfl
  | infinite negative =>
      cases right with
      | nan negative' payload inRange => rfl
      | infinite negative' => cases negative <;> cases negative' <;> rfl
      | finite negative' magnitude' fits' => rfl
  | finite negative magnitude fits =>
      cases right with
      | nan negative' payload inRange => rfl
      | infinite negative' => rfl
      | finite negative' magnitude' fits' => simp only [add, Int.add_comm, Bool.and_comm]

/-- Nothing is added by a zero of either sign. -/
theorem sameNumber_add_zero (value : Single) (zeroAt : FiniteAt zero 0) :
    SameNumber (value + zero) value := by
  cases value with
  | finite negative magnitude fits =>
      have valueAt := finiteAt_finite negative magnitude fits
      have sum := rank?_add valueAt zeroAt
      rw [Int.add_zero, valueAt.fits.roundedRank_eq] at sum
      exact sum.trans valueAt.ranked.symm
  | _ =>
      obtain ⟨_, rfl⟩ := zeroAt.eq_zeroOf
      rfl

theorem add_isNaN_of_left (isNaN : left.isNaN = true) (right : Single) :
    (left + right).isNaN = true := by
  rw [add_isNaN (.inl isNaN), isNaN, Bool.true_or]

theorem SameNumber.add_right (same : SameNumber left left') (right : Single) :
    SameNumber (left + right) (left' + right) := by
  rcases same.cases with rfl | ⟨leftNaN, leftNaN'⟩ | ⟨leftAt, leftAt'⟩
  · exact refl _
  · exact sameNumber_of_isNaN (add_isNaN_of_left leftNaN right) (add_isNaN_of_left leftNaN' right)
  · rw [add_comm left, add_comm left']
    exact (sameNumber_add_zero right leftAt).trans (sameNumber_add_zero right leftAt').symm

theorem SameNumber.add (same : SameNumber left left') (same' : SameNumber right right') :
    SameNumber (left + right) (left' + right') := by
  refine (same.add_right right).trans ?_
  rw [add_comm left', add_comm left']
  exact same'.add_right left'

theorem SameNumber.sub (same : SameNumber left left') (same' : SameNumber right right') :
    SameNumber (left - right) (left' - right') := same.add same'.neg

/-- The sign of a sum is that of its terms, but for a zero. -/
theorem sameNumber_neg_add_neg (left right : Single) :
    SameNumber (-left + -right) (-(left + right)) := by
  cases left with
  | nan negative payload inRange => cases right <;> rfl
  | infinite negative =>
      cases right with
      | infinite negative' => cases negative <;> cases negative' <;> rfl
      | _ => rfl
  | finite negative magnitude fits =>
      cases right with
      | finite negative' magnitude' fits' =>
          have leftAt := finiteAt_finite negative magnitude fits
          have rightAt := finiteAt_finite negative' magnitude' fits'
          have sum := rank?_add leftAt.neg rightAt.neg
          rw [← Int.neg_add, roundedRank_neg] at sum
          exact sum.trans (rank?_neg (rank?_add leftAt rightAt)).symm
      | _ => rfl

theorem sameNumber_neg_sub_neg (left right : Single) :
    SameNumber (-left - -right) (-(left - right)) := sameNumber_neg_add_neg left (-right)

end Sums

section Products

theorem mul_comm (left right : Single) : left * right = right * left := by
  show mul left right = mul right left
  cases left with
  | nan negative payload inRange => cases right <;> rfl
  | infinite negative => cases right <;> simp only [mul, bne_comm]
  | finite negative magnitude fits => cases right <;> simp only [mul, bne_comm, Nat.mul_comm]

theorem mul_isNaN_of_left (isNaN : left.isNaN = true) (right : Single) :
    (left * right).isNaN = true := mul_isNaN_iff.mpr (.inl isNaN)

/-- Zero times a finite number is zero. -/
theorem zero_mul_finiteAt (zeroAt : FiniteAt zero 0) (finite : right.isFinite = true) :
    FiniteAt (zero * right) 0 := by
  obtain ⟨rank, rightAt⟩ := isFinite_iff.mp finite
  rw [mul_comm]
  exact ⟨rank?_mul_zero rightAt zeroAt, fits_zero⟩

theorem SameNumber.mul_right (same : SameNumber left left') (right : Single) :
    SameNumber (left * right) (left' * right) := by
  rcases same.cases with rfl | ⟨leftNaN, leftNaN'⟩ | ⟨leftAt, leftAt'⟩
  · exact refl _
  · exact sameNumber_of_isNaN (mul_isNaN_of_left leftNaN right) (mul_isNaN_of_left leftNaN' right)
  · by_cases finite : right.isFinite = true
    · exact (zero_mul_finiteAt leftAt finite).sameNumber (zero_mul_finiteAt leftAt' finite)
    · -- A zero and an infinity have no product, nor has a NaN.
      have unbounded : right.isNaN = true ∨ right.isInfinite = true := by
        cases right with
        | nan negative payload inRange => exact .inl rfl
        | infinite negative => exact .inr rfl
        | finite negative magnitude fits => exact absurd rfl finite
      have lost : ∀ {zero : Single}, FiniteAt zero 0 → (zero * right).isNaN = true :=
        fun zeroAt => mul_isNaN_iff.mpr (.inr (unbounded.imp_right fun infinite =>
          .inr ⟨zeroAt.equals_zero, infinite⟩))
      exact sameNumber_of_isNaN (lost leftAt) (lost leftAt')

theorem SameNumber.mul (same : SameNumber left left') (same' : SameNumber right right') :
    SameNumber (left * right) (left' * right') := by
  refine (same.mul_right right).trans ?_
  rw [mul_comm left', mul_comm left']
  exact same'.mul_right left'

theorem neg_neg (value : Single) : - -value = value := by
  cases value <;> simp only [Neg.neg, neg, Bool.not_not]

theorem sameNumber_neg_mul (left right : Single) :
    SameNumber (-left * right) (-(left * right)) := by
  by_cases finite : left.isFinite = true ∧ right.isFinite = true
  · rw [neg_mul finite.1 finite.2]
    exact .refl _
  · cases left with
    | nan negative payload inRange => cases right <;> rfl
    | infinite negative =>
        cases right with
        | nan negative' payload inRange => rfl
        | infinite negative' => cases negative <;> cases negative' <;> rfl
        | finite negative' magnitude fits =>
            show (mul _ _).rank? = (neg (mul _ _)).rank?
            by_cases zero : magnitude = 0 <;> cases negative <;> cases negative' <;>
              simp [Neg.neg, neg, mul, zero, quietNaN, rank?]
    | finite negative magnitude fits =>
        cases right with
        | nan negative' payload inRange => rfl
        | infinite negative' =>
            show (mul _ _).rank? = (neg (mul _ _)).rank?
            by_cases zero : magnitude = 0 <;> cases negative <;> cases negative' <;>
              simp [Neg.neg, neg, mul, zero, quietNaN, rank?]
        | finite negative' magnitude' fits' => exact absurd ⟨rfl, rfl⟩ finite

theorem sameNumber_mul_neg (left right : Single) :
    SameNumber (left * -right) (-(left * right)) := by
  rw [mul_comm left, mul_comm left]
  exact sameNumber_neg_mul right left

theorem sameNumber_neg_mul_neg (left right : Single) :
    SameNumber (-left * -right) (left * right) := by
  have moved := (sameNumber_mul_neg (-left) right).trans (sameNumber_neg_mul left right).neg
  rwa [neg_neg] at moved

end Products

section Quotients

theorem zero_div_sameNumber (leftAt : FiniteAt left 0) (leftAt' : FiniteAt left' 0)
    (right : Single) : SameNumber (left / right) (left' / right) := by
  obtain ⟨negative, rfl⟩ := leftAt.eq_zeroOf
  obtain ⟨negative', rfl⟩ := leftAt'.eq_zeroOf
  show (div _ _).rank? = (div _ _).rank?
  cases right with
  | nan negative'' payload inRange => rfl
  | infinite negative'' => simp only [div, zeroOf, rank?, signedUnits_zero]
  | finite negative'' magnitude fits =>
      by_cases nothing : magnitude = 0
      · simp only [div, zeroOf, nothing, if_true]
      · simp only [div, zeroOf, nothing, if_false, Nat.zero_mul, rank?_ofUnits,
          roundSignificant_zero (show 0 < 24 by decide), Nat.zero_min, signedUnits_zero]

/-- Nothing is assumed of the divisor, but it has to be one and the same single. -/
theorem SameNumber.div_right (same : SameNumber left left') (right : Single) :
    SameNumber (left / right) (left' / right) := by
  rcases same.cases with rfl | ⟨leftNaN, leftNaN'⟩ | ⟨leftAt, leftAt'⟩
  · exact refl _
  · have lost : ∀ {value : Single}, value.isNaN = true → value / right = quietNaN := by
      intro value isNaN
      cases value with
      | nan negative payload inRange => cases right <;> rfl
      | infinite negative => cases isNaN
      | finite negative magnitude fits => cases isNaN
    rw [lost leftNaN, lost leftNaN']
    exact refl _
  · exact zero_div_sameNumber leftAt leftAt' right

theorem zero_div_finiteAt (zeroAt : FiniteAt zero 0) (finite : right.isFinite = true)
    (positive : 0 < right) : FiniteAt (zero / right) 0 := by
  obtain ⟨rank, rightAt⟩ := isFinite_iff.mp finite
  have above := (zero_finiteAt.lt_iff rightAt).mp positive
  have quotient := rank?_div zeroAt rightAt (Int.le_refl 0) above
  rw [Int.natAbs_zero, Nat.zero_mul, roundSignificant_zero (by decide), Nat.zero_min] at quotient
  exact ⟨quotient, fits_zero⟩

end Quotients

section Angles

theorem sin_of_isNaN (isNaN : value.isNaN = true) : value.sin = quietNaN := by
  cases value with
  | nan negative payload inRange => rfl
  | infinite negative => cases isNaN
  | finite negative magnitude fits => cases isNaN

theorem cos_of_isNaN (isNaN : value.isNaN = true) : value.cos = quietNaN := by
  cases value with
  | nan negative payload inRange => rfl
  | infinite negative => cases isNaN
  | finite negative magnitude fits => cases isNaN

theorem SameNumber.sin (same : SameNumber left right) : SameNumber left.sin right.sin := by
  rcases same.cases with rfl | ⟨leftNaN, rightNaN⟩ | ⟨leftAt, rightAt⟩
  · exact refl _
  · rw [sin_of_isNaN leftNaN, sin_of_isNaN rightNaN]
    exact refl _
  · obtain ⟨negative, rfl⟩ := leftAt.eq_zeroOf
    obtain ⟨negative', rfl⟩ := rightAt.eq_zeroOf
    exact same

theorem SameNumber.cos (same : SameNumber left right) : SameNumber left.cos right.cos := by
  rcases same.cases with rfl | ⟨leftNaN, rightNaN⟩ | ⟨leftAt, rightAt⟩
  · exact refl _
  · rw [cos_of_isNaN leftNaN, cos_of_isNaN rightNaN]
    exact refl _
  · obtain ⟨negative, rfl⟩ := leftAt.eq_zeroOf
    obtain ⟨negative', rfl⟩ := rightAt.eq_zeroOf
    exact refl _

theorem SameNumber.toRadians (same : SameNumber left right) :
    SameNumber left.toRadians right.toRadians := same.mul_right _

/-- The sine is odd. -/
theorem sameNumber_sin_neg (angle : Single) : SameNumber (-angle).sin (-angle.sin) := by
  cases angle with
  | nan negative payload inRange => rfl
  | infinite negative => rfl
  | finite negative magnitude fits =>
      show SameNumber (finite (!negative) magnitude fits).sin
        (-(finite negative magnitude fits).sin)
      by_cases nothing : magnitude = 0
      · simp only [Single.sin, nothing, if_true]
        exact .refl _
      · cases negative with
        | false =>
            simp only [Single.sin, nothing, if_false, Bool.not_false, if_true, Bool.false_eq_true]
            exact .refl _
        | true =>
            simp only [Single.sin, nothing, if_false, Bool.not_true, if_true, Bool.false_eq_true,
              neg_neg]
            exact .refl _

/-- The cosine is even. -/
theorem cos_neg (angle : Single) : (-angle).cos = angle.cos := by
  cases angle <;> rfl

theorem sameNumber_toRadians_neg (degrees : Single) :
    SameNumber (-degrees).toRadians (-degrees.toRadians) := sameNumber_neg_mul degrees _

end Angles

end LimbAnimation.Single
