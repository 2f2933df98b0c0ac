import LimbAnimation.Proofs.Single.Arithmetic

/-!
# The unit interval

Clamping brings every number into the unit interval, but not a NaN; so it is told here
which sums and products are NaNs.
-/

namespace LimbAnimation.Single

/-- Only zero has two spellings. -/
theorem FiniteAt.eq {left right : Single} {rank : Int} (leftAt : FiniteAt left rank)
    (rightAt : FiniteAt right rank) (nonzero : rank ≠ 0) : left = right := by
  obtain ⟨negative, magnitude, fits, rfl, rfl⟩ := leftAt.exists_eq
  obtain ⟨negative', magnitude', fits', rfl, same⟩ := rightAt.exists_eq
  have magnitudes := congrArg Int.natAbs same
  rw [natAbs_signedUnits, natAbs_signedUnits] at magnitudes
  subst magnitudes
  have signs : negative = negative' := by
    cases negative with
    | false =>
        cases negative' with
        | false => rfl
        | true =>
            simp only [signedUnits, Bool.false_eq_true, if_false, if_true] at same nonzero
            omega
    | true =>
        cases negative' with
        | false =>
            simp only [signedUnits, Bool.false_eq_true, if_false, if_true] at same nonzero
            omega
        | true => rfl
  rw [signs]

theorem eq_one_of_between {value : Single} (above : 1 ≤ value) (below : value ≤ 1) :
    value = 1 := by
  obtain ⟨rank, valueAt⟩ := isFinite_iff.mp
    (isFinite_of_between (le_trans inUnit_one.nonnegative above) below inUnit_one.isFinite)
  obtain ⟨unit, oneAt⟩ := isFinite_iff.mp inUnit_one.isFinite
  rw [oneAt.le_iff valueAt] at above
  rw [valueAt.le_iff oneAt] at below
  cases Int.le_antisymm below above
  have one : rank = unitsPerOne := Option.some.inj (oneAt.ranked.symm.trans rank?_one)
  exact valueAt.eq oneAt (one ▸ by decide)

/-- A number is once in itself. -/
theorem div_eq_one {left right : Single} (same : left.equals right = true) (positive : 0 < right)
    (finite : right.isFinite = true) : left / right = 1 := by
  have atMost := le_of_equals same
  have atLeast := le_of_equals ((equals_comm right left).trans same)
  have nonnegative := le_trans (le_of_lt positive) atLeast
  have leftFinite := isFinite_of_between nonnegative atMost finite
  exact eq_one_of_between (one_le_div atLeast positive leftFinite)
    (div_inUnit nonnegative atMost positive finite).atMostOne

section NaN

/-- An infinity of either sign. -/
def isInfinite : Single → Bool
  | .infinite _ => true
  | _ => false

variable {left right : Single}

theorem equals_zero_finite (negative : Bool) (magnitude : Nat) (fits : Fits magnitude) :
    (finite negative magnitude fits).equals 0 = decide (magnitude = 0) := by
  have ranked : (finite negative magnitude fits).rank? =
      some (signedUnits negative magnitude) := rfl
  simp only [equals, ranked, rank?_zero]
  cases negative <;> by_cases nothing : magnitude = 0 <;> simp [signedUnits, nothing]

theorem neg_isNaN (value : Single) : (-value).isNaN = value.isNaN := by
  cases value <;> rfl

theorem clampUnit_isNaN (value : Single) : value.clampUnit.isNaN = value.isNaN := by
  rcases clampUnit_cases value with ⟨same, _⟩ | ⟨zero, below⟩ | ⟨one, above⟩
  · rw [same]
  · obtain ⟨_, _, ranked, _⟩ := lt_iff.mp below
    rw [zero, zero_isNaN, isNaN_of_rank ranked]
  · obtain ⟨_, _, _, ranked, _⟩ := lt_iff.mp above
    rw [one, inUnit_one.isNaN, isNaN_of_rank ranked]

theorem clampUnit_inUnit {value : Single} (isNumber : value.isNaN = false) :
    InUnit value.clampUnit := by
  rcases clampUnit_ranged value with isNaN | inUnit
  · rw [clampUnit_isNaN, isNumber] at isNaN
    cases isNaN
  · exact inUnit

theorem clampUnit_mono (ordered : left ≤ right) : left.clampUnit ≤ right.clampUnit := by
  have inUnit := clampUnit_inUnit (isNaN_left_of_le ordered)
  have inUnitRight := clampUnit_inUnit (isNaN_of_le ordered)
  rcases clampUnit_cases left with ⟨same, _⟩ | ⟨zero, _⟩ | ⟨one, above⟩
  · rw [same] at inUnit ⊢
    exact le_clampUnit inUnit ordered
  · rw [zero]
    exact inUnitRight.nonnegative
  · rw [one]
    exact le_clampUnit inUnit_one (le_trans (le_of_lt above) ordered)

theorem clampUnit_of_one_le {value : Single} (atLeast : 1 ≤ value) : value.clampUnit = 1 :=
  eq_one_of_between (le_clampUnit inUnit_one atLeast)
    (clampUnit_inUnit (isNaN_of_le atLeast)).atMostOne

theorem clampUnit_lt {bound value : Single} (inUnit : InUnit bound) (positive : 0 < bound)
    (below : value < bound) : value.clampUnit < bound := by
  rcases clampUnit_cases value with ⟨same, _⟩ | ⟨zero, _⟩ | ⟨_, above⟩
  · rwa [same]
  · rwa [zero]
  · exact absurd above (not_lt_of_le (le_trans (le_of_lt below) inUnit.atMostOne))

/-- Only opposite infinities have a sum that is no number. -/
theorem add_isNaN (ranged : left.isNaN = true ∨ left.isFinite = true) :
    (left + right).isNaN = (left.isNaN || right.isNaN) := by
  cases left with
  | nan negative payload inRange => cases right <;> rfl
  | infinite negative => rcases ranged with isNaN | finite <;> contradiction
  | finite negative magnitude fits =>
      cases right with
      | nan negative' payload inRange => rfl
      | infinite negative' => rfl
      | finite negative' magnitude' fits' =>
          show (add _ _).isNaN = false
          unfold add
          dsimp only
          split
          · rfl
          · exact ofUnits_isNaN _ _ _

theorem equals_zero_infinite (negative : Bool) : (infinite negative).equals 0 = false := by
  have ranked : (infinite negative).rank? = some (signedUnits negative unitsLimit) := rfl
  simp only [equals, ranked, rank?_zero]
  cases negative <;> decide

/-- A product is no number when a factor is none, or when an infinity meets zero. -/
theorem mul_isNaN_iff :
    (left * right).isNaN = true ↔ left.isNaN = true ∨ right.isNaN = true ∨
      (left.isInfinite = true ∧ right.equals 0 = true) ∨
      (left.equals 0 = true ∧ right.isInfinite = true) := by
  have product : left * right = left.mul right := rfl
  rw [product]
  cases left with
  | nan negative payload inRange => cases right <;> simp [mul, quietNaN, isNaN]
  | infinite negative =>
      cases right with
      | nan negative' payload inRange => simp [mul, quietNaN, isNaN]
      | infinite negative' => simp [mul, isNaN, equals_zero_infinite]
      | finite negative' magnitude fits =>
          by_cases nothing : magnitude = 0 <;>
            simp [mul, nothing, quietNaN, isNaN, isInfinite, equals_zero_finite]
  | finite negative magnitude fits =>
      cases right with
      | nan negative' payload inRange => simp [mul, quietNaN, isNaN]
      | infinite negative' =>
          by_cases nothing : magnitude = 0 <;>
            simp [mul, nothing, quietNaN, isNaN, isInfinite, equals_zero_finite]
      | finite negative' magnitude' fits' =>
          have isNumber :=
            ofUnits_isNaN (negative != negative') (magnitude * magnitude') unitsPerOne
          rw [mul, isNumber]
          simp [isNaN, isInfinite]

end NaN

end LimbAnimation.Single
