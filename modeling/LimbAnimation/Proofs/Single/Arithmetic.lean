import LimbAnimation.Proofs.Rounding
import LimbAnimation.Proofs.Single.Order

/-!
# Arithmetic on ranks

The rank of a sum, product or quotient of finite numbers is the exact one, rounded,
and rounding never passes the rank of a finite number.  So adding nothing changes
nothing, taking away does not raise, and a part of a whole is at most one.
-/

namespace LimbAnimation.Single

theorem signedUnits_zero (negative : Bool) : signedUnits negative 0 = 0 := by
  cases negative <;> rfl

theorem natAbs_signedUnits (negative : Bool) (magnitude : Nat) :
    (signedUnits negative magnitude).natAbs = magnitude := by
  cases negative <;> simp [signedUnits]

theorem rank?_ofUnits (negative : Bool) (numerator denominator : Nat) :
    (ofUnits negative numerator denominator).rank? =
      some (signedUnits negative (min (roundSignificant 24 numerator denominator) unitsLimit)) := by
  unfold ofUnits
  split
  next bounded => rw [rank?, Nat.min_eq_left (Nat.le_of_lt bounded)]
  next beyond => rw [rank?, Nat.min_eq_right (Nat.le_of_not_lt beyond)]

/-- A rank rounded to that of a single; far ranks go to those of the infinities. -/
def roundedRank (rank : Int) : Int :=
  signedUnits (decide (rank < 0)) (min (roundSignificant 24 rank.natAbs 1) unitsLimit)

theorem roundedRank_neg (rank : Int) : roundedRank (-rank) = -roundedRank rank := by
  rcases Int.lt_trichotomy rank 0 with negative | rfl | positive
  · have other : ¬ -rank < 0 := by omega
    simp only [roundedRank, signedUnits, Int.natAbs_neg, negative, other, decide_true,
      decide_false, if_true, Bool.false_eq_true, if_false, Int.neg_neg]
  · rfl
  · have other : ¬ rank < 0 := by omega
    have negative : -rank < 0 := by omega
    simp only [roundedRank, signedUnits, Int.natAbs_neg, negative, other, decide_true,
      decide_false, if_true, Bool.false_eq_true, if_false]

theorem Fits.roundedRank_le {bound rank : Int} (fits : Fits bound.natAbs) (below : rank ≤ bound) :
    roundedRank rank ≤ bound := by
  have limited := fits.bounded
  unfold roundedRank signedUnits
  by_cases negative : rank < 0
  · by_cases above : 0 ≤ bound
    · simp only [negative, decide_true, if_true]
      omega
    · have kept : bound.natAbs ≤ roundSignificant 24 rank.natAbs 1 :=
        le_roundSignificant (by decide) Nat.one_pos fits.short (by omega)
      simp only [negative, decide_true, if_true]
      omega
  · have kept : roundSignificant 24 rank.natAbs 1 ≤ bound.natAbs :=
      roundSignificant_le (by decide) fits.short (by omega)
    simp only [negative, decide_false, Bool.false_eq_true, if_false]
    omega

theorem Fits.le_roundedRank {bound rank : Int} (fits : Fits bound.natAbs) (above : bound ≤ rank) :
    bound ≤ roundedRank rank := by
  have mirrored : Fits (-bound).natAbs := by rwa [Int.natAbs_neg]
  have below := mirrored.roundedRank_le (Int.neg_le_neg above)
  rw [roundedRank_neg] at below
  omega

theorem Fits.roundedRank_eq {rank : Int} (fits : Fits rank.natAbs) : roundedRank rank = rank :=
  Int.le_antisymm (fits.roundedRank_le (Int.le_refl _)) (fits.le_roundedRank (Int.le_refl _))

/-- A finite number of a given rank. -/
structure FiniteAt (value : Single) (rank : Int) : Prop where
  ranked : value.rank? = some rank
  fits : Fits rank.natAbs

theorem finiteAt_finite (negative : Bool) (magnitude : Nat) (fits : Fits magnitude) :
    FiniteAt (.finite negative magnitude fits) (signedUnits negative magnitude) :=
  ⟨rfl, by rwa [natAbs_signedUnits]⟩

theorem FiniteAt.exists_eq {value : Single} {rank : Int} (finite : FiniteAt value rank) :
    ∃ negative magnitude fits, value = .finite negative magnitude fits ∧
      rank = signedUnits negative magnitude := by
  obtain ⟨ranked, inRange⟩ := finite
  cases value with
  | nan negative payload payloadRange => cases ranked
  | infinite negative =>
      cases ranked
      rw [natAbs_signedUnits] at inRange
      exact absurd inRange.bounded (Nat.lt_irrefl _)
  | finite negative magnitude fits =>
      cases ranked
      exact ⟨negative, magnitude, fits, rfl, rfl⟩

theorem isFinite_iff {value : Single} : value.isFinite = true ↔ ∃ rank, FiniteAt value rank := by
  constructor
  · intro finite
    cases value with
    | nan negative payload inRange => cases finite
    | infinite negative => cases finite
    | finite negative magnitude fits => exact ⟨_, finiteAt_finite negative magnitude fits⟩
  · rintro ⟨rank, finite⟩
    obtain ⟨negative, magnitude, fits, rfl, _⟩ := finite.exists_eq
    rfl

theorem zero_finiteAt : FiniteAt 0 0 := ⟨rank?_zero, fits_zero⟩

/-- A number that is numerically zero, of either sign. -/
theorem finiteAt_of_equals_zero {value : Single} (zero : value.equals 0 = true) :
    FiniteAt value 0 := by
  obtain ⟨rank, rankOfZero, ranked, zeroRanked, same⟩ := equals_iff.mp zero
  cases rank?_zero.symm.trans zeroRanked
  exact ⟨same ▸ ranked, fits_zero⟩

theorem FiniteAt.equals_zero {value : Single} (zeroAt : FiniteAt value 0) :
    value.equals 0 = true :=
  equals_iff.mpr ⟨0, 0, zeroAt.ranked, rank?_zero, rfl⟩

theorem zero_equals_zero : (0 : Single).equals 0 = true := zero_finiteAt.equals_zero

theorem FiniteAt.lt_iff {left right : Single} {leftRank rightRank : Int}
    (leftAt : FiniteAt left leftRank) (rightAt : FiniteAt right rightRank) :
    left < right ↔ leftRank < rightRank := by
  rw [Single.lt_iff]
  simp [leftAt.ranked, rightAt.ranked]

theorem FiniteAt.le_iff {left right : Single} {leftRank rightRank : Int}
    (leftAt : FiniteAt left leftRank) (rightAt : FiniteAt right rightRank) :
    left ≤ right ↔ leftRank ≤ rightRank := by
  rw [Single.le_iff]
  simp [leftAt.ranked, rightAt.ranked]

theorem FiniteAt.neg {value : Single} {rank : Int} (finite : FiniteAt value rank) :
    FiniteAt (-value) (-rank) := by
  obtain ⟨negative, magnitude, fits, rfl, rfl⟩ := finite.exists_eq
  have mirrored : -signedUnits negative magnitude = signedUnits (!negative) magnitude := by
    cases negative <;> simp [signedUnits]
  exact mirrored ▸ finiteAt_finite (!negative) magnitude fits

theorem isNaN_of_isFinite {value : Single} (finite : value.isFinite = true) :
    value.isNaN = false := by
  obtain ⟨rank, finiteAt⟩ := isFinite_iff.mp finite
  exact isNaN_of_rank finiteAt.ranked

theorem ofUnits_isFinite {negative : Bool} {numerator denominator bound : Nat}
    (fits : Fits bound) (below : numerator ≤ bound * denominator) :
    (ofUnits negative numerator denominator).isFinite = true := by
  have rounded := roundSignificant_le (by decide) fits.short below
  unfold ofUnits
  rw [dif_pos (Nat.lt_of_le_of_lt rounded fits.bounded)]
  rfl

theorem ofNat_isFinite {value : Nat} (bounded : value < 2 ^ 32) :
    (ofNat value).isFinite = true := by
  have fits : Fits (2 ^ 32 * unitsPerOne) := ⟨by decide, 1, 181, by decide, rfl⟩
  refine ofUnits_isFinite fits ?_
  rw [Nat.mul_one]
  exact Nat.mul_le_mul_right _ (Nat.le_of_lt bounded)

theorem ofNat_positive {value : Nat} (positive : 0 < value) : 0 < ofNat value := by
  have kept : 1 ≤ roundSignificant 24 (value * unitsPerOne) 1 :=
    le_roundSignificant (by decide) Nat.one_pos ⟨1, 0, by decide, rfl⟩
      (Nat.mul_pos positive (by decide))
  have limit : 1 ≤ unitsLimit := by decide
  refine lt_iff.mpr ⟨0, _, rank?_zero, rank?_ofUnits _ _ _, ?_⟩
  simp only [signedUnits, Bool.false_eq_true, if_false]
  omega

theorem half_positive : 0 < half := rfl

theorem isFinite_of_between {value bound : Single} (nonnegative : 0 ≤ value)
    (atMost : value ≤ bound) (finite : bound.isFinite = true) : value.isFinite = true := by
  obtain ⟨boundRank, boundAt⟩ := isFinite_iff.mp finite
  obtain ⟨zero, rank, zeroRank, ranked, above⟩ := le_iff.mp nonnegative
  obtain ⟨rank', boundRank', ranked', boundRanked, below⟩ := le_iff.mp atMost
  cases rank?_zero.symm.trans zeroRank
  cases ranked.symm.trans ranked'
  cases boundAt.ranked.symm.trans boundRanked
  have limited := boundAt.fits.bounded
  cases value with
  | nan negative payload inRange => cases ranked
  | finite negative magnitude fits => rfl
  | infinite negative =>
      cases ranked
      cases negative with
      | true =>
          simp only [signedUnits, if_true] at above
          exact absurd above (by decide)
      | false =>
          simp only [signedUnits, Bool.false_eq_true, if_false] at below
          omega

theorem InUnit.isFinite {value : Single} (inUnit : InUnit value) : value.isFinite = true :=
  isFinite_of_between inUnit.nonnegative inUnit.atMostOne (ofNat_isFinite (by decide))

section Operations

variable {left right : Single} {leftRank rightRank : Int}

theorem rank?_add (leftFinite : FiniteAt left leftRank) (rightFinite : FiniteAt right rightRank) :
    (left + right).rank? = some (roundedRank (leftRank + rightRank)) := by
  obtain ⟨negative, magnitude, fits, rfl, rfl⟩ := leftFinite.exists_eq
  obtain ⟨negative', magnitude', fits', rfl, rfl⟩ := rightFinite.exists_eq
  show (add _ _).rank? = _
  simp only [add]
  split
  next nothing =>
      rw [nothing, zeroOf, rank?, signedUnits_zero]
      rfl
  next something => rw [rank?_ofUnits, roundedRank]

theorem finite_mul_finite (negative negative' : Bool) {magnitude magnitude' : Nat}
    (fits : Fits magnitude) (fits' : Fits magnitude') :
    finite negative magnitude fits * finite negative' magnitude' fits' =
      ofUnits (negative != negative') (magnitude * magnitude') unitsPerOne := by
  show mul _ _ = _
  rw [mul]

/-- What a single can hold is not rounded. -/
theorem Fits.ofUnits_eq {magnitude denominator : Nat} (fits : Fits magnitude)
    (nonzero : 0 < denominator) (negative : Bool) :
    ofUnits negative (magnitude * denominator) denominator = finite negative magnitude fits := by
  have exact : roundSignificant 24 (magnitude * denominator) denominator = magnitude :=
    Nat.le_antisymm (roundSignificant_le (by decide) fits.short (Nat.le_refl _))
      (le_roundSignificant (by decide) nonzero fits.short (Nat.le_refl _))
  simp only [ofUnits, exact, fits.bounded, dif_pos]

theorem fits_unitsPerOne : Fits unitsPerOne := ⟨by decide, 1, 149, by decide, rfl⟩

/-- Unlike the product with zero, this one keeps the sign of a zero. -/
theorem mul_one (finite : left.isFinite = true) : left * 1 = left := by
  obtain ⟨rank, leftAt⟩ := isFinite_iff.mp finite
  obtain ⟨negative, magnitude, fits, rfl, _⟩ := leftAt.exists_eq
  have unit : (1 : Single) = .finite false unitsPerOne fits_unitsPerOne :=
    fits_unitsPerOne.ofUnits_eq Nat.one_pos false
  rw [unit, finite_mul_finite, Bool.bne_false, fits.ofUnits_eq (by decide)]

theorem rank?_mul_of_nonnegative (leftAt : FiniteAt left leftRank)
    (rightAt : FiniteAt right rightRank) (leftSign : 0 ≤ leftRank) (rightSign : 0 ≤ rightRank) :
    (left * right).rank? = some (min
      (roundSignificant 24 (leftRank.natAbs * rightRank.natAbs) unitsPerOne) unitsLimit : Nat) := by
  obtain ⟨negative, magnitude, fits, rfl, rfl⟩ := leftAt.exists_eq
  obtain ⟨negative', magnitude', fits', rfl, rfl⟩ := rightAt.exists_eq
  rw [finite_mul_finite, rank?_ofUnits, natAbs_signedUnits, natAbs_signedUnits]
  cases product : negative != negative' with
  | false => rfl
  | true =>
      -- A factor with a negative sign is zero.
      have nothing : magnitude * magnitude' = 0 := by
        cases negative with
        | true =>
            have zero : magnitude = 0 := by
              simp only [signedUnits, if_true] at leftSign
              omega
            rw [zero, Nat.zero_mul]
        | false =>
            cases negative' with
            | false => cases product
            | true =>
                have zero : magnitude' = 0 := by
                  simp only [signedUnits, if_true] at rightSign
                  omega
                rw [zero, Nat.mul_zero]
      rw [nothing, roundSignificant_zero (by decide), Nat.zero_min, signedUnits_zero]
      rfl

theorem rank?_mul_zero (leftFinite : FiniteAt left leftRank) (rightZero : FiniteAt right 0) :
    (left * right).rank? = some 0 := by
  obtain ⟨negative, magnitude, fits, rfl, rfl⟩ := leftFinite.exists_eq
  obtain ⟨negative', magnitude', fits', rfl, zero⟩ := rightZero.exists_eq
  have nothing : magnitude' = 0 := by
    rw [← natAbs_signedUnits negative' magnitude', ← zero, Int.natAbs_zero]
  subst nothing
  rw [finite_mul_finite, Nat.mul_zero, rank?_ofUnits, roundSignificant_zero (by decide),
    Nat.zero_min, signedUnits_zero]

theorem mul_isNaN (leftFinite : left.isFinite = true) (rightFinite : right.isFinite = true) :
    (left * right).isNaN = false := by
  obtain ⟨leftRank, leftAt⟩ := isFinite_iff.mp leftFinite
  obtain ⟨rightRank, rightAt⟩ := isFinite_iff.mp rightFinite
  obtain ⟨negative, magnitude, fits, rfl, _⟩ := leftAt.exists_eq
  obtain ⟨negative', magnitude', fits', rfl, _⟩ := rightAt.exists_eq
  rw [finite_mul_finite, ofUnits_isNaN]

theorem div_isNaN (isNumber : left.isNaN = false) (finite : right.isFinite = true)
    (positive : 0 < right) : (left / right).isNaN = false := by
  obtain ⟨rank, rightAt⟩ := isFinite_iff.mp finite
  have above := (zero_finiteAt.lt_iff rightAt).mp positive
  obtain ⟨negative, magnitude, fits, rfl, rfl⟩ := rightAt.exists_eq
  have nonzero : magnitude ≠ 0 := by
    rintro rfl
    rw [signedUnits_zero] at above
    exact Int.lt_irrefl _ above
  cases left with
  | nan negative' payload inRange => cases isNumber
  | infinite negative' => rfl
  | finite negative' magnitude' fits' =>
      show (div _ _).isNaN = false
      rw [div, if_neg nonzero]
      exact ofUnits_isNaN _ _ _

theorem rank?_div (leftFinite : FiniteAt left leftRank) (rightFinite : FiniteAt right rightRank)
    (nonnegative : 0 ≤ leftRank) (positive : 0 < rightRank) :
    (left / right).rank? = some (min
      (roundSignificant 24 (leftRank.natAbs * unitsPerOne) rightRank.natAbs) unitsLimit : Nat) := by
  obtain ⟨negative, magnitude, fits, rfl, rfl⟩ := leftFinite.exists_eq
  obtain ⟨negative', magnitude', fits', rfl, rfl⟩ := rightFinite.exists_eq
  cases negative' with
  | true =>
      simp only [signedUnits, if_true] at positive
      omega
  | false =>
      simp only [signedUnits, Bool.false_eq_true, if_false] at positive
      show (div _ _).rank? = _
      rw [div, if_neg (by omega), Bool.bne_false, rank?_ofUnits, natAbs_signedUnits,
        natAbs_signedUnits]
      cases negative with
      | false => rfl
      | true =>
          have nothing : magnitude = 0 := by
            simp only [signedUnits, if_true] at nonnegative
            omega
          rw [nothing, Nat.zero_mul, roundSignificant_zero (by decide), Nat.zero_min,
            signedUnits_zero]
          rfl

theorem div_inUnit (nonnegative : 0 ≤ left) (part : left ≤ right) (positive : 0 < right)
    (finite : right.isFinite = true) : InUnit (left / right) := by
  obtain ⟨leftRank, leftAt⟩ := isFinite_iff.mp (isFinite_of_between nonnegative part finite)
  obtain ⟨rightRank, rightAt⟩ := isFinite_iff.mp finite
  rw [zero_finiteAt.le_iff leftAt] at nonnegative
  rw [leftAt.le_iff rightAt] at part
  rw [zero_finiteAt.lt_iff rightAt] at positive
  have kept : roundSignificant 24 (leftRank.natAbs * unitsPerOne) rightRank.natAbs ≤
      unitsPerOne := by
    refine roundSignificant_le (by decide) ⟨1, 149, by decide, rfl⟩ ?_
    rw [Nat.mul_comm]
    exact Nat.mul_le_mul_left _ (by omega)
  exact inUnit_iff.mpr ⟨_, rank?_div leftAt rightAt nonnegative positive,
    Int.natCast_nonneg _, by omega⟩

theorem one_le_div (whole : right ≤ left) (positive : 0 < right) (finite : left.isFinite = true) :
    1 ≤ left / right := by
  have rightFinite := isFinite_of_between (le_of_lt positive) whole finite
  obtain ⟨leftRank, leftAt⟩ := isFinite_iff.mp finite
  obtain ⟨rightRank, rightAt⟩ := isFinite_iff.mp rightFinite
  rw [rightAt.le_iff leftAt] at whole
  rw [zero_finiteAt.lt_iff rightAt] at positive
  have kept : unitsPerOne ≤
      roundSignificant 24 (leftRank.natAbs * unitsPerOne) rightRank.natAbs := by
    refine le_roundSignificant (by decide) (by omega) ⟨1, 149, by decide, rfl⟩ ?_
    rw [Nat.mul_comm]
    exact Nat.mul_le_mul_right _ (by omega)
  have limit : unitsPerOne ≤ unitsLimit := by decide
  refine le_iff.mpr ⟨_, _, rank?_one, rank?_div leftAt rightAt (by omega) positive, ?_⟩
  omega

theorem div_not_negative (finite : left.isFinite = true) (nonnegative : 0 ≤ left)
    (positive : 0 < right) : ¬ left / right < 0 := by
  intro smaller
  obtain ⟨rank, zero, ranked, zeroRank, less⟩ := lt_iff.mp smaller
  cases rank?_zero.symm.trans zeroRank
  obtain ⟨leftRank, leftAt⟩ := isFinite_iff.mp finite
  cases right with
  | nan negative payload inRange =>
      obtain ⟨_, _, _, unranked, _⟩ := lt_iff.mp positive
      cases unranked
  | infinite negative =>
      obtain ⟨_, magnitude, _, rfl, _⟩ := leftAt.exists_eq
      cases (show (div _ _).rank? = _ from ranked)
      rw [signedUnits_zero] at less
      exact Int.lt_irrefl _ less
  | finite negative magnitude fits =>
      have rightAt := finiteAt_finite negative magnitude fits
      rw [zero_finiteAt.le_iff leftAt] at nonnegative
      rw [zero_finiteAt.lt_iff rightAt] at positive
      cases (rank?_div leftAt rightAt nonnegative positive).symm.trans ranked
      omega

theorem not_lt_add_neg (finite : left.isFinite = true) (notNegative : ¬ right < 0) :
    ¬ left < left + -right := by
  intro smaller
  obtain ⟨leftRank, leftAt⟩ := isFinite_iff.mp finite
  obtain ⟨low, high, leftRanked, sumRanked, less⟩ := lt_iff.mp smaller
  cases leftAt.ranked.symm.trans leftRanked
  by_cases rightFinite : right.isFinite
  · obtain ⟨rightRank, rightAt⟩ := isFinite_iff.mp rightFinite
    rw [rightAt.lt_iff zero_finiteAt] at notNegative
    cases (rank?_add leftAt rightAt.neg).symm.trans sumRanked
    have kept : roundedRank (leftRank + -rightRank) ≤ leftRank :=
      leftAt.fits.roundedRank_le (by omega)
    omega
  · -- What is taken away may have become infinite.
    obtain ⟨negative, magnitude, fits, rfl, rfl⟩ := leftAt.exists_eq
    cases right with
    | nan negative' payload inRange => cases (show (add _ _).rank? = _ from sumRanked)
    | finite negative' magnitude' fits' => exact absurd rfl rightFinite
    | infinite negative' =>
        cases (show (add _ _).rank? = _ from sumRanked)
        cases negative' with
        | true => exact absurd infinite_negative notNegative
        | false =>
            have inRange := fits.bounded
            simp only [signedUnits, Bool.not_false, if_true] at less
            split at less <;> omega

end Operations

end LimbAnimation.Single
