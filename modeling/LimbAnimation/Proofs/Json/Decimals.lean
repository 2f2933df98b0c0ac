import LimbAnimation.Proofs.RoundingError
import LimbAnimation.Proofs.Json.Numerals

/-!
# Decimals of singles

Every finite single is printed as a decimal that is read as the same single.  Where no
shortest one is found, about twelve digits are enough: a double takes them with an error
that is small against the distance of singles.
-/

namespace LimbAnimation

section Doubles

variable {negative : Bool} {magnitude : Nat}

theorem Near.refl (digits value : Nat) : Near digits value value :=
  ⟨Nat.le_add_right _ _, Nat.le_add_right _ _⟩

/-- A quotient near a finite single is rounded to it. -/
theorem Single.ofRatio_eq_finite {numerator denominator : Nat} (fits : Single.Fits magnitude)
    (nonzero : 0 < denominator)
    (near : Near 26 (numerator * unitsPerOne) (magnitude * denominator)) :
    ofRatio negative numerator denominator = .finite negative magnitude fits := by
  have rounded := roundSignificant_eq_of_near (by decide) nonzero fits.short near
  unfold ofRatio ofUnits
  simp only [rounded, fits.bounded, dif_pos]

theorem roundDouble_of_lt {value : Nat} (small : value < 2 ^ 53) : roundDouble value = value := by
  have short : Short 53 value := ⟨value, 0, small, (Nat.mul_one value).symm⟩
  apply roundSignificant_eq_of_near (by decide) Nat.one_pos short
  rw [Nat.mul_one]
  exact .refl _ _

theorem roundDouble_le_two_pow {value exponent : Nat} (below : value ≤ 2 ^ exponent) :
    roundDouble value ≤ 2 ^ exponent := by
  have short : Short 53 (2 ^ exponent) := ⟨1, exponent, by decide, (Nat.one_mul _).symm⟩
  apply roundSignificant_le (by decide) short
  rwa [Nat.mul_one]

theorem roundDouble_positive {value : Nat} (positive : 0 < value) : 0 < roundDouble value := by
  have short : Short 53 1 := ⟨1, 0, by decide, rfl⟩
  apply le_roundSignificant (by decide) Nat.one_pos short
  exact positive

theorem le_doubleUnitsPerOne : 2 ^ 53 * 2 ^ 190 ≤ doubleUnitsPerOne := by
  rw [doubleUnitsPerOne, ← Nat.pow_add]
  apply Nat.pow_le_pow_right <;> decide

theorem lt_doubleLimit : 2 ^ (53 + 87) < doubleLimit := by
  rw [doubleLimit]
  apply Nat.pow_lt_pow_right <;> decide

/-- A decimal with places is read as a single that its coefficient is near. -/
theorem throughDouble?_of_places {coefficient places : Nat} (fits : Single.Fits magnitude)
    (positive : 0 < coefficient) (small : coefficient < 2 ^ 53) (few : places + 1 ≤ 57)
    (near : Near 40 (coefficient * Single.unitsPerOne) (magnitude * 10 ^ (places + 1))) :
    Decimal.throughDouble? ⟨negative, coefficient, .negSucc places⟩ =
      some (.finite negative magnitude fits) := by
  have powerBounded : 10 ^ (places + 1) ≤ 2 ^ 190 :=
    Nat.le_trans (Nat.pow_le_pow_right (by decide) few) (by decide)
  have powerNear : Near 53 (roundDouble (10 ^ (places + 1))) (10 ^ (places + 1)) :=
    near_roundSignificant_one (by decide) _
  have roundedBounded := roundDouble_le_two_pow powerBounded
  have roundedPositive := roundDouble_positive (Nat.pow_pos (n := places + 1) (by decide : 0 < 10))
  have inRange : places + 1 ≤ largestPower := by
    unfold largestPower
    omega
  unfold Decimal.throughDouble?
  dsimp only
  rw [roundDouble_of_lt small, overPower, if_pos inRange, Option.some.injEq]
  generalize roundDouble (10 ^ (places + 1)) = power at *
  generalize 10 ^ (places + 1) = exact at *
  have room := le_doubleUnitsPerOne
  generalize doubleUnitsPerOne = units at *
  have unitsPositive : 0 < units := by omega
  have quotientNear : Near 53 (roundDoubleUnits (coefficient * units) power * power)
      (coefficient * units) := by
    apply near_roundSignificant (by decide) roundedPositive
    have wide := Nat.mul_le_mul_left (2 ^ 53) roundedBounded
    have grows : units ≤ coefficient * units := Nat.le_mul_of_pos_left units positive
    omega
  generalize roundDoubleUnits (coefficient * units) power = quotient at *
  apply Single.ofRatio_eq_finite fits unitsPositive
  generalize Single.unitsPerOne = unit at *
  apply Near.cancel roundedPositive
  have first : Near 40 (quotient * unit * power) (coefficient * unit * units) := by
    have scaled := (quotientNear.scale unit).weaken (show 40 ≤ 53 by decide)
    rwa [Nat.mul_right_comm, Nat.mul_right_comm coefficient] at scaled
  have second : Near 40 (coefficient * unit * units) (magnitude * units * exact) := by
    have scaled := near.scale units
    rwa [Nat.mul_right_comm magnitude] at scaled
  have third : Near 38 (magnitude * units * exact) (magnitude * units * power) := by
    have scaled := (powerNear.symm.scale (magnitude * units)).weaken (show 38 ≤ 52 by decide)
    rwa [Nat.mul_comm exact, Nat.mul_comm power] at scaled
  exact ((first.trans second).trans third).weaken (by decide)

/-- A decimal without places is read as a single that it is near. -/
theorem throughDouble?_of_power {coefficient exponent : Nat} (fits : Single.Fits magnitude)
    (positive : 0 < coefficient) (small : coefficient < 2 ^ 53) (few : exponent ≤ 26)
    (near : Near 40 (coefficient * (Single.unitsPerOne * 10 ^ exponent)) magnitude) :
    Decimal.throughDouble? ⟨negative, coefficient, .ofNat exponent⟩ =
      some (.finite negative magnitude fits) := by
  have powerBounded : 10 ^ exponent ≤ 2 ^ 87 :=
    Nat.le_trans (Nat.pow_le_pow_right (by decide) few) (by decide)
  have powerNear : Near 53 (roundDouble (10 ^ exponent)) (10 ^ exponent) :=
    near_roundSignificant_one (by decide) _
  have roundedBounded := roundDouble_le_two_pow powerBounded
  have inRange : ¬ largestPower < exponent := by
    unfold largestPower
    omega
  unfold Decimal.throughDouble?
  dsimp only
  rw [roundDouble_of_lt small, timesPower?, if_neg positive.ne', if_neg inRange]
  generalize roundDouble (10 ^ exponent) = power at *
  generalize 10 ^ exponent = exact at *
  have productNear : Near 53 (roundDouble (coefficient * power)) (coefficient * power) :=
    near_roundSignificant_one (by decide) _
  have bounded : roundDouble (coefficient * power) < doubleLimit := by
    have below : coefficient * power ≤ 2 ^ 53 * 2 ^ 87 := Nat.mul_le_mul small.le roundedBounded
    rw [← Nat.pow_add] at below
    exact Nat.lt_of_le_of_lt (roundDouble_le_two_pow below) lt_doubleLimit
  generalize roundDouble (coefficient * power) = product at *
  rw [Option.filter_some, if_pos (decide_eq_true bounded), Option.map_some, Option.some.injEq]
  apply Single.ofRatio_eq_finite fits Nat.one_pos
  generalize Single.unitsPerOne = unit at *
  have first : Near 40 (product * unit) (coefficient * unit * power) := by
    have scaled := (productNear.scale unit).weaken (show 40 ≤ 53 by decide)
    rwa [Nat.mul_right_comm coefficient] at scaled
  have second : Near 40 (coefficient * unit * power) (coefficient * (unit * exact)) := by
    have scaled := (powerNear.scale (coefficient * unit)).weaken (show 40 ≤ 53 by decide)
    rwa [Nat.mul_comm power, Nat.mul_comm exact, Nat.mul_assoc coefficient unit exact] at scaled
  have third := near.weaken (show 38 ≤ 40 by decide)
  rw [Nat.mul_one]
  exact ((first.trans second).trans third).weaken (by decide)

end Doubles

namespace Single

theorem unitsLimit_eq_two_pow : unitsLimit = 2 ^ (277 : Nat) := by decide +kernel

/-- The grid of the rounded decimal leaves it between eleven and fourteen digits. -/
theorem roundedDecimal_grid {magnitude : Nat} (positive : 0 < magnitude)
    (bounded : magnitude < unitsLimit) :
    let exponent : Int := ((magnitude.log2 : Int) - 149) * 3 / 10 - 12
    (-57 ≤ exponent ∧ exponent ≤ 26) ∧
      2 ^ 39 * (unitsPerOne * 10 ^ exponent.toNat) ≤ magnitude * 10 ^ (-exponent).toNat ∧
        magnitude * 10 ^ (-exponent).toNat ≤ 2 ^ 49 * (unitsPerOne * 10 ^ exponent.toNat) := by
  have grid : ∀ log : Nat, log < 277 →
      let exponent : Int := ((log : Int) - 149) * 3 / 10 - 12
      (-57 ≤ exponent ∧ exponent ≤ 26) ∧
        2 ^ 39 * (unitsPerOne * 10 ^ exponent.toNat) ≤ 2 ^ log * 10 ^ (-exponent).toNat ∧
          2 ^ (log + 1) * 10 ^ (-exponent).toNat ≤
            2 ^ 49 * (unitsPerOne * 10 ^ exponent.toNat) := by
    decide +kernel
  have log : magnitude.log2 < 277 :=
    (Nat.log2_lt positive.ne').mpr (Nat.lt_of_lt_of_eq bounded unitsLimit_eq_two_pow)
  obtain ⟨range, lower, upper⟩ := grid magnitude.log2 log
  refine ⟨range, ?_, ?_⟩
  · exact Nat.le_trans lower (Nat.mul_le_mul_right _ (Nat.log2_self_le positive.ne'))
  · exact Nat.le_trans (Nat.mul_le_mul_right _ Nat.lt_log2_self.le) upper

/-- The rounded decimal lies near the number. -/
theorem roundedDecimal_near (negative : Bool) {magnitude : Nat} (positive : 0 < magnitude)
    (bounded : magnitude < unitsLimit) :
    let decimal := roundedDecimal negative magnitude
    (-57 ≤ decimal.exponent ∧ decimal.exponent ≤ 26) ∧
      (0 < decimal.coefficient ∧ decimal.coefficient ≤ 2 ^ 49) ∧
        Near 40 (decimal.coefficient * (unitsPerOne * 10 ^ decimal.exponent.toNat))
          (magnitude * 10 ^ (-decimal.exponent).toNat) := by
  obtain ⟨range, lower, upper⟩ := roundedDecimal_grid positive bounded
  have denominatorPositive : ∀ power : Nat, 0 < unitsPerOne * 10 ^ power := by
    intro power
    exact Nat.mul_pos (Nat.two_pow_pos 149) (Nat.pow_pos (by decide))
  refine ⟨range, ⟨?_, ?_⟩, ?_⟩
  · apply le_roundHalfEven (denominatorPositive _)
    omega
  · exact roundHalfEven_le upper
  · apply near_roundHalfEven (denominatorPositive _)
    omega

end Single

namespace Json

/-- A decimal that a single is near is read as the single in the form that it is printed in. -/
theorem throughDouble?_placed {decimal : Decimal} {magnitude : Nat} (fits : Single.Fits magnitude)
    (range : -57 ≤ decimal.exponent ∧ decimal.exponent ≤ 26)
    (digits : 0 < decimal.coefficient ∧ decimal.coefficient ≤ 2 ^ 49)
    (near : Near 40 (decimal.coefficient * (Single.unitsPerOne * 10 ^ decimal.exponent.toNat))
      (magnitude * 10 ^ (-decimal.exponent).toNat)) :
    (placed decimal).throughDouble? = some (.finite decimal.negative magnitude fits) := by
  obtain ⟨negative, coefficient, exponent⟩ := decimal
  dsimp only at range digits near
  cases exponent with
  | negSucc places =>
      have asGiven : placed ⟨negative, coefficient, .negSucc places⟩ =
          ⟨negative, coefficient, .negSucc places⟩ := if_neg (by simp)
      rw [Int.toNat_negSucc, Nat.pow_zero, Nat.mul_one] at near
      rw [asGiven]
      exact throughDouble?_of_places fits digits.1 (by omega) (by omega) near
  | ofNat power =>
      have few : power ≤ 26 := Int.ofNat_le.mp range.2
      have noPlaces : (-Int.ofNat power).toNat = 0 := by
        rw [Int.ofNat_eq_natCast]
        omega
      rw [noPlaces, Nat.pow_zero, Nat.mul_one] at near
      by_cases short : power + (Nat.toDigits 10 coefficient).length ≤ 13
      · have withPlace : placed ⟨negative, coefficient, .ofNat power⟩ =
            ⟨negative, coefficient * 10 ^ (power + 1), .negSucc 0⟩ :=
          if_pos ⟨Int.natCast_nonneg power, Int.ofNat_le.mpr short⟩
        have bounded := lt_ten_pow_of_short short
        have positive : 0 < coefficient * 10 ^ (power + 1) :=
          Nat.mul_pos digits.1 (Nat.pow_pos (by decide))
        have scaled : Near 40 (coefficient * (Single.unitsPerOne * 10 ^ power) * 10)
            (magnitude * 10) := near.scale 10
        have asPlaced : coefficient * (Single.unitsPerOne * 10 ^ power) * 10 =
            coefficient * 10 ^ (power + 1) * Single.unitsPerOne := by ring
        rw [asPlaced] at scaled
        rw [withPlace]
        exact throughDouble?_of_places fits positive (by omega) (by omega) scaled
      · have asGiven : placed ⟨negative, coefficient, .ofNat power⟩ =
            ⟨negative, coefficient, .ofNat power⟩ := by
          apply if_neg
          intro given
          exact short (Int.ofNat_le.mp given.2)
        rw [asGiven]
        exact throughDouble?_of_power fits digits.1 (by omega) few near

/-- The decimal that a single falls back on is read as the single. -/
theorem throughDouble?_roundedDecimal (negative : Bool) {magnitude : Nat}
    (fits : Single.Fits magnitude) :
    (Single.roundedDecimal negative magnitude).coefficient < sizeLimit ∧
      (placed (Single.roundedDecimal negative magnitude)).throughDouble? =
        some (.finite negative magnitude fits) := by
  rcases Nat.eq_zero_or_pos magnitude with none | positive
  · subst none
    have zeros : ∀ negative, (Single.roundedDecimal negative 0).coefficient < sizeLimit ∧
        (placed (Single.roundedDecimal negative 0)).throughDouble? =
          some (.finite negative 0 Single.fits_zero) := by decide +kernel
    exact zeros negative
  · obtain ⟨range, digits, near⟩ := Single.roundedDecimal_near negative positive fits.bounded
    have limit : 2 ^ 49 < sizeLimit := by decide
    exact ⟨Nat.lt_of_le_of_lt digits.2 limit, throughDouble?_placed fits range digits near⟩

/-- A finite single is read from the word that it is printed as. -/
theorem numeral?_decimalOf (negative : Bool) {magnitude : Nat} (fits : Single.Fits magnitude) :
    let value : Single := .finite negative magnitude fits
    numeral? (decimalChars (decimalOf value negative magnitude)) =
      some (.single (some value)) := by
  intro value
  unfold decimalOf
  cases found : Single.shortestDecimal? (readsAs value) negative magnitude with
  | some decimal => exact eq_of_beq (Single.shortestDecimal?_reads found)
  | none =>
      obtain ⟨small, reads⟩ := throughDouble?_roundedDecimal negative fits
      have printed := numeral?_decimalChars small
      rw [Numeral.ofDecimal, reads] at printed
      exact printed

end Json

end LimbAnimation
