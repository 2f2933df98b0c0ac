import LimbAnimation.Proofs.Single.Arithmetic

/-!
# Monotone operations

Rounding keeps the order of what it rounds, so an operation keeps the order of its
operands as the exact one does, also where a result becomes infinite.
-/

namespace LimbAnimation.Single

theorem roundedRank_mono {low high : Int} (atMost : low ≤ high) :
    roundedRank low ≤ roundedRank high := by
  by_cases lowNegative : low < 0
  · by_cases highNegative : high < 0
    · have magnitudes := roundSignificant_mono (by decide : 0 < 24) Nat.one_pos
        (show high.natAbs ≤ low.natAbs by omega)
      simp only [roundedRank, signedUnits, lowNegative, highNegative, decide_true, if_true]
      omega
    · have zero : Fits (0 : Int).natAbs := fits_zero
      exact Int.le_trans (zero.roundedRank_le (Int.le_of_lt lowNegative))
        (zero.le_roundedRank (Int.not_lt.mp highNegative))
  · have highNonnegative : ¬ high < 0 := by omega
    have magnitudes := roundSignificant_mono (by decide : 0 < 24) Nat.one_pos
      (show low.natAbs ≤ high.natAbs by omega)
    simp only [roundedRank, signedUnits, lowNegative, highNonnegative, decide_false,
      Bool.false_eq_true, if_false]
    omega

section Operations

variable {left right left' right' : Single}

theorem rank?_neg {value : Single} {rank : Int} (ranked : value.rank? = some rank) :
    (-value).rank? = some (-rank) := by
  cases value with
  | nan negative payload inRange => cases ranked
  | infinite negative =>
      cases ranked
      cases negative <;> rfl
  | finite negative magnitude fits =>
      cases ranked
      exact (finiteAt_finite negative magnitude fits).neg.ranked

theorem neg_le_neg (atMost : left ≤ right) : -right ≤ -left := by
  obtain ⟨low, high, leftRank, rightRank, ordered⟩ := le_iff.mp atMost
  exact le_iff.mpr ⟨_, _, rank?_neg rightRank, rank?_neg leftRank, Int.neg_le_neg ordered⟩

theorem eq_infinite_of_nonnegative {value : Single} (nonnegative : 0 ≤ value)
    (unbounded : ¬ value.isFinite = true) : value = .infinite false := by
  cases value with
  | nan negative payload inRange => cases isNaN_of_le nonnegative
  | finite negative magnitude fits => exact absurd rfl unbounded
  | infinite negative =>
      cases negative with
      | false => rfl
      | true => exact absurd infinite_negative (not_lt_of_le nonnegative)

theorem neg_isFinite (value : Single) : (-value).isFinite = value.isFinite := by
  cases value <;> rfl

theorem ofUnits_not (negative : Bool) (numerator denominator : Nat) :
    ofUnits (!negative) numerator denominator = -ofUnits negative numerator denominator := by
  unfold ofUnits
  split <;> rfl

theorem neg_mul (leftFinite : left.isFinite = true) (rightFinite : right.isFinite = true) :
    -left * right = -(left * right) := by
  cases left with
  | nan negative payload inRange => cases leftFinite
  | infinite negative => cases leftFinite
  | finite negative magnitude fits =>
      cases right with
      | nan negative' payload inRange => cases rightFinite
      | infinite negative' => cases rightFinite
      | finite negative' magnitude' fits' =>
          rw [finite_mul_finite, ← ofUnits_not, ← Bool.not_bne]
          exact finite_mul_finite (!negative) negative' fits fits'

theorem add_le_add (leftMost : left ≤ left') (rightMost : right ≤ right')
    (leftFinite : left.isFinite = true) (rightFinite : right.isFinite = true)
    (leftFinite' : left'.isFinite = true) (rightFinite' : right'.isFinite = true) :
    left + right ≤ left' + right' := by
  obtain ⟨leftRank, leftAt⟩ := isFinite_iff.mp leftFinite
  obtain ⟨rightRank, rightAt⟩ := isFinite_iff.mp rightFinite
  obtain ⟨leftRank', leftAt'⟩ := isFinite_iff.mp leftFinite'
  obtain ⟨rightRank', rightAt'⟩ := isFinite_iff.mp rightFinite'
  rw [leftAt.le_iff leftAt'] at leftMost
  rw [rightAt.le_iff rightAt'] at rightMost
  exact le_iff.mpr ⟨_, _, rank?_add leftAt rightAt, rank?_add leftAt' rightAt',
    roundedRank_mono (Int.add_le_add leftMost rightMost)⟩

theorem mul_le_mul (leftSign : 0 ≤ left) (rightSign : 0 ≤ right) (leftMost : left ≤ left')
    (rightMost : right ≤ right') (leftFinite' : left'.isFinite = true)
    (rightFinite' : right'.isFinite = true) : left * right ≤ left' * right' := by
  obtain ⟨leftRank, leftAt⟩ := isFinite_iff.mp (isFinite_of_between leftSign leftMost leftFinite')
  obtain ⟨rightRank, rightAt⟩ :=
    isFinite_iff.mp (isFinite_of_between rightSign rightMost rightFinite')
  obtain ⟨leftRank', leftAt'⟩ := isFinite_iff.mp leftFinite'
  obtain ⟨rightRank', rightAt'⟩ := isFinite_iff.mp rightFinite'
  rw [zero_finiteAt.le_iff leftAt] at leftSign
  rw [zero_finiteAt.le_iff rightAt] at rightSign
  rw [leftAt.le_iff leftAt'] at leftMost
  rw [rightAt.le_iff rightAt'] at rightMost
  have magnitudes := roundSignificant_mono (by decide : 0 < 24) (by decide : 0 < unitsPerOne)
    (Nat.mul_le_mul (show leftRank.natAbs ≤ leftRank'.natAbs by omega)
      (show rightRank.natAbs ≤ rightRank'.natAbs by omega))
  refine le_iff.mpr ⟨_, _, rank?_mul_of_nonnegative leftAt rightAt leftSign rightSign,
    rank?_mul_of_nonnegative leftAt' rightAt' (by omega) (by omega), ?_⟩
  omega

theorem mul_nonnegative (leftSign : 0 ≤ left) (rightSign : 0 ≤ right)
    (leftFinite : left.isFinite = true) (rightFinite : right.isFinite = true) :
    0 ≤ left * right := by
  obtain ⟨leftRank, leftAt⟩ := isFinite_iff.mp leftFinite
  obtain ⟨rightRank, rightAt⟩ := isFinite_iff.mp rightFinite
  rw [zero_finiteAt.le_iff leftAt] at leftSign
  rw [zero_finiteAt.le_iff rightAt] at rightSign
  exact le_iff.mpr ⟨0, _, rank?_zero, rank?_mul_of_nonnegative leftAt rightAt leftSign rightSign,
    Int.natCast_nonneg _⟩

theorem div_le_div (leftSign : 0 ≤ left) (leftMost : left ≤ left')
    (leftFinite' : left'.isFinite = true) (rightFinite : right.isFinite = true)
    (positive : 0 < right) : left / right ≤ left' / right := by
  obtain ⟨leftRank, leftAt⟩ := isFinite_iff.mp (isFinite_of_between leftSign leftMost leftFinite')
  obtain ⟨leftRank', leftAt'⟩ := isFinite_iff.mp leftFinite'
  obtain ⟨rightRank, rightAt⟩ := isFinite_iff.mp rightFinite
  rw [zero_finiteAt.le_iff leftAt] at leftSign
  rw [leftAt.le_iff leftAt'] at leftMost
  rw [zero_finiteAt.lt_iff rightAt] at positive
  have magnitudes := roundSignificant_mono (by decide : 0 < 24)
    (show 0 < rightRank.natAbs by omega)
    (Nat.mul_le_mul_right unitsPerOne (show leftRank.natAbs ≤ leftRank'.natAbs by omega))
  refine le_iff.mpr ⟨_, _, rank?_div leftAt rightAt leftSign positive,
    rank?_div leftAt' rightAt (by omega) positive, ?_⟩
  omega

/-- What is added may be infinite. -/
theorem le_add_of_nonnegative (finite : left.isFinite = true) (nonnegative : 0 ≤ right) :
    left ≤ left + right := by
  obtain ⟨leftRank, leftAt⟩ := isFinite_iff.mp finite
  by_cases rightFinite : right.isFinite = true
  · obtain ⟨rightRank, rightAt⟩ := isFinite_iff.mp rightFinite
    rw [zero_finiteAt.le_iff rightAt] at nonnegative
    exact le_iff.mpr ⟨_, _, leftAt.ranked, rank?_add leftAt rightAt,
      leftAt.fits.le_roundedRank (by omega)⟩
  · obtain rfl := eq_infinite_of_nonnegative nonnegative rightFinite
    have sum : left + infinite false = infinite false := by
      obtain ⟨negative, magnitude, fits, rfl, _⟩ := leftAt.exists_eq
      rfl
    have bounded := leftAt.fits.bounded
    rw [sum]
    exact le_iff.mpr ⟨leftRank, unitsLimit, leftAt.ranked, rfl, by omega⟩

/-- The quotient of a time by a short duration may have become infinite. -/
theorem mul_nonnegative_of_positive (leftSign : 0 ≤ left) (rightFinite : right.isFinite = true)
    (positive : 0 < right) : 0 ≤ left * right := by
  by_cases leftFinite : left.isFinite = true
  · exact mul_nonnegative leftSign (le_of_lt positive) leftFinite rightFinite
  · obtain rfl := eq_infinite_of_nonnegative leftSign leftFinite
    obtain ⟨rightRank, rightAt⟩ := isFinite_iff.mp rightFinite
    rw [zero_finiteAt.lt_iff rightAt] at positive
    obtain ⟨negative, magnitude, fits, rfl, rfl⟩ := rightAt.exists_eq
    cases negative with
    | true =>
        simp only [signedUnits, if_true] at positive
        omega
    | false =>
        simp only [signedUnits, Bool.false_eq_true, if_false] at positive
        have product : infinite false * finite false magnitude fits = infinite false :=
          if_neg (by omega)
        rw [product]
        exact infinite_nonnegative

theorem div_nonnegative (leftFinite : left.isFinite = true) (leftSign : 0 ≤ left)
    (rightFinite : right.isFinite = true) (positive : 0 < right) : 0 ≤ left / right :=
  le_of_not_lt zero_isNaN (div_isNaN (isNaN_of_isFinite leftFinite) rightFinite positive)
    (div_not_negative leftFinite leftSign positive)

end Operations

end LimbAnimation.Single
