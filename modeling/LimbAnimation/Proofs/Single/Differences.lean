import LimbAnimation.Proofs.Single.Monotone

/-!
# Differences

The difference of two ordered numbers is not negative and keeps their order.  So the way
from one number to a second one, as a part of the way to a third one behind it, lies in the
unit interval, also where the whole way is too long to be finite.
-/

namespace LimbAnimation.Single

/-- The largest finite magnitude, in units. -/
def largestUnits : Nat := (2 ^ 24 - 1) * 2 ^ 253

theorem fits_largestUnits : Fits largestUnits := ⟨by decide, 2 ^ 24 - 1, 253, by decide, rfl⟩

theorem Fits.le_largestUnits {magnitude : Nat} (fits : Fits magnitude) :
    magnitude ≤ largestUnits := by
  have bounded := fits.bounded
  rw [unitsLimit_eq] at bounded
  rcases Short.multiple_or_below fits.short 253 with ⟨factor, rfl⟩ | ⟨_, below⟩
  · have digits : factor < 2 ^ 24 := Nat.lt_of_mul_lt_mul_right bounded
    exact Nat.mul_le_mul_right _ (by omega)
  · unfold largestUnits
    omega

section Operations

variable {left right left' : Single}

theorem rank?_sub {leftRank rightRank : Int} (leftAt : FiniteAt left leftRank)
    (rightAt : FiniteAt right rightRank) :
    (left - right).rank? = some (roundedRank (leftRank - rightRank)) := by
  rw [Int.sub_eq_add_neg]
  exact rank?_add leftAt rightAt.neg

theorem sub_le_sub_right (atMost : left ≤ left') (leftFinite : left.isFinite = true)
    (leftFinite' : left'.isFinite = true) (rightFinite : right.isFinite = true) :
    left - right ≤ left' - right := by
  have negated : (-right).isFinite = true := (neg_isFinite right).trans rightFinite
  exact add_le_add atMost (le_refl (isNaN_of_isFinite negated)) leftFinite negated leftFinite'
    negated

theorem sub_nonnegative (ordered : right ≤ left) (leftFinite : left.isFinite = true)
    (rightFinite : right.isFinite = true) : 0 ≤ left - right := by
  obtain ⟨leftRank, leftAt⟩ := isFinite_iff.mp leftFinite
  obtain ⟨rightRank, rightAt⟩ := isFinite_iff.mp rightFinite
  rw [rightAt.le_iff leftAt] at ordered
  exact le_iff.mpr ⟨0, _, rank?_zero, rank?_sub leftAt rightAt,
    zero_finiteAt.fits.le_roundedRank (by omega)⟩

/-- One is too little to lead beyond the largest number. -/
theorem roundedRank_largestUnits_add_one :
    roundedRank (largestUnits + unitsPerOne) = largestUnits := rfl

/-- The way to a number of the unit interval is finite from everywhere before it. -/
theorem sub_isFinite (inUnit : InUnit left) (ordered : right ≤ left)
    (rightFinite : right.isFinite = true) : (left - right).isFinite = true := by
  obtain ⟨leftRank, leftAt⟩ := isFinite_iff.mp inUnit.isFinite
  obtain ⟨rightRank, rightAt⟩ := isFinite_iff.mp rightFinite
  obtain ⟨rank, ranked, _, atMostOne⟩ := inUnit_iff.mp inUnit
  cases leftAt.ranked.symm.trans ranked
  have reach : leftRank - rightRank ≤ largestUnits + unitsPerOne := by
    have magnitude := rightAt.fits.le_largestUnits
    omega
  have atMost : left - right ≤ finite false largestUnits fits_largestUnits :=
    le_iff.mpr ⟨_, _, rank?_sub leftAt rightAt, rfl,
      Int.le_trans (roundedRank_mono reach) (Int.le_of_eq roundedRank_largestUnits_add_one)⟩
  exact isFinite_of_between (sub_nonnegative ordered inUnit.isFinite rightFinite) atMost rfl

theorem rank?_finite_div_infinite (leftFinite : left.isFinite = true) :
    (left / infinite false).rank? = some 0 := by
  cases left with
  | nan negative payload inRange => cases leftFinite
  | infinite negative => cases leftFinite
  | finite negative magnitude fits =>
      show (zeroOf _).rank? = some 0
      rw [zeroOf, rank?, signedUnits_zero]

theorem finite_div_infinite_inUnit (leftFinite : left.isFinite = true) :
    InUnit (left / infinite false) :=
  inUnit_iff.mpr ⟨0, rank?_finite_div_infinite leftFinite, Int.le_refl 0, Int.natCast_nonneg _⟩

/-- Divided by infinity, finite numbers become zero and all others a NaN. -/
theorem not_lt_div_infinite : ¬ left / infinite false < right / infinite false := by
  have zero {value : Single} {rank : Int} (ranked : (value / infinite false).rank? = some rank) :
      rank = 0 := by
    cases value with
    | nan negative payload inRange => cases ranked
    | infinite negative => cases ranked
    | finite negative magnitude fits =>
        exact Option.some.inj (ranked.symm.trans (rank?_finite_div_infinite rfl))
  intro less
  obtain ⟨low, high, leftRank, rightRank, below⟩ := lt_iff.mp less
  rw [zero leftRank, zero rightRank] at below
  exact Int.lt_irrefl 0 below

/-- The part of the way from `right` to `left'` that leads to `left`. -/
theorem sub_div_sub_inUnit (inUnit : InUnit left) (above : right ≤ left) (below : left ≤ left')
    (rightFinite : right.isFinite = true) (leftFinite' : left'.isFinite = true)
    (apart : 0 < left' - right) : InUnit ((left - right) / (left' - right)) := by
  have nonnegative := sub_nonnegative above inUnit.isFinite rightFinite
  by_cases wholeFinite : (left' - right).isFinite = true
  · exact div_inUnit nonnegative
      (sub_le_sub_right below inUnit.isFinite leftFinite' rightFinite) apart wholeFinite
  · rw [eq_infinite_of_nonnegative (le_of_lt apart) wholeFinite]
    exact finite_div_infinite_inUnit (sub_isFinite inUnit above rightFinite)

end Operations

end LimbAnimation.Single
