import LimbAnimation.Playback.Blend
import LimbAnimation.Proofs.Single.SameNumber

/-!
# The ease in and out

The quadratic ease maps the unit interval to itself and keeps its order.  Both branches do
so on the whole interval, since rounding keeps the order of every step, and they meet at a
half.  Clamping extends this to all numbers.
-/

namespace LimbAnimation

open Single

/-- The branch of the ease for the first half. -/
def easeIn (value : Single) : Single := 2 * value * value

/-- What a value of the second half leaves to the end, as a part of that half. -/
def restOfEase (value : Single) : Single := -2 * value + 2

/-- The branch of the ease for the second half. -/
def easeOut (value : Single) : Single := 1 - restOfEase value * restOfEase value / 2

section Order

variable {value larger : Single}

theorem easeInOut_of_inUnit (inUnit : InUnit value) :
    easeInOut value = if value < half then easeIn value else easeOut value := by
  rw [easeInOut, clampUnit_of_inUnit inUnit]
  rfl

theorem inUnit_half : InUnit half := ⟨rfl, rfl⟩

theorem two_isFinite : (2 : Single).isFinite = true := ofNat_isFinite (by decide)

theorem two_positive : (0 : Single) < 2 := ofNat_positive (by decide)

theorem two_le_two : (2 : Single) ≤ 2 := le_refl (ofNat_isNaN 2)

theorem two_mul_mono (inUnit : InUnit value) (inUnitLarger : InUnit larger)
    (atMost : value ≤ larger) : 2 * value ≤ 2 * larger :=
  mul_le_mul (le_of_lt two_positive) inUnit.nonnegative two_le_two atMost two_isFinite
    inUnitLarger.isFinite

theorem two_mul_ends : 2 * (0 : Single) = 0 ∧ 2 * (1 : Single) = 2 := ⟨rfl, rfl⟩

theorem two_mul_between (inUnit : InUnit value) : 0 ≤ 2 * value ∧ 2 * value ≤ 2 := by
  have above := two_mul_mono inUnit_zero inUnit inUnit.nonnegative
  have below := two_mul_mono inUnit inUnit_one inUnit.atMostOne
  rw [two_mul_ends.1] at above
  rw [two_mul_ends.2] at below
  exact ⟨above, below⟩

theorem two_mul_isFinite (inUnit : InUnit value) : (2 * value).isFinite = true :=
  isFinite_of_between (two_mul_between inUnit).1 (two_mul_between inUnit).2 two_isFinite

theorem easeIn_mono (inUnit : InUnit value) (inUnitLarger : InUnit larger)
    (atMost : value ≤ larger) : easeIn value ≤ easeIn larger :=
  mul_le_mul (two_mul_between inUnit).1 inUnit.nonnegative
    (two_mul_mono inUnit inUnitLarger atMost) atMost (two_mul_isFinite inUnitLarger)
    inUnitLarger.isFinite

theorem restOfEase_anti (inUnit : InUnit value) (inUnitLarger : InUnit larger)
    (atMost : value ≤ larger) : restOfEase larger ≤ restOfEase value := by
  have negated : ∀ {other : Single}, InUnit other → -2 * other = -(2 * other) :=
    fun unit => neg_mul two_isFinite unit.isFinite
  have finite : ∀ {other : Single}, InUnit other → (-2 * other).isFinite = true := by
    intro other unit
    rw [negated unit, neg_isFinite, two_mul_isFinite unit]
  refine add_le_add ?_ two_le_two (finite inUnitLarger) two_isFinite (finite inUnit) two_isFinite
  rw [negated inUnit, negated inUnitLarger]
  exact neg_le_neg (two_mul_mono inUnit inUnitLarger atMost)

theorem restOfEase_ends : restOfEase 0 = 2 ∧ restOfEase 1 = 0 := ⟨rfl, rfl⟩

theorem restOfEase_between (inUnit : InUnit value) :
    0 ≤ restOfEase value ∧ restOfEase value ≤ 2 := by
  have above := restOfEase_anti inUnit inUnit_one inUnit.atMostOne
  have below := restOfEase_anti inUnit_zero inUnit inUnit.nonnegative
  rw [restOfEase_ends.2] at above
  rw [restOfEase_ends.1] at below
  exact ⟨above, below⟩

theorem halfSquare_ends : (0 * 0 / 2 : Single) = 0 ∧ (2 * 2 : Single).isFinite = true ∧
    (2 * 2 / 2 : Single).isFinite = true := ⟨rfl, rfl, rfl⟩

theorem halfSquare_mono (nonnegative : 0 ≤ value) (ordered : value ≤ larger) (atMost : larger ≤ 2) :
    value * value / 2 ≤ larger * larger / 2 := by
  have sign : 0 ≤ larger := le_trans nonnegative ordered
  have finite : larger.isFinite = true := isFinite_of_between sign atMost two_isFinite
  have finiteValue : value.isFinite = true := isFinite_of_between nonnegative ordered finite
  have finiteSquare : (larger * larger).isFinite = true :=
    isFinite_of_between (mul_nonnegative sign sign finite finite)
      (mul_le_mul sign sign atMost atMost two_isFinite two_isFinite) halfSquare_ends.2.1
  exact div_le_div (mul_nonnegative nonnegative nonnegative finiteValue finiteValue)
    (mul_le_mul nonnegative nonnegative ordered ordered finite finite) finiteSquare two_isFinite
    two_positive

theorem easeOut_mono (inUnit : InUnit value) (inUnitLarger : InUnit larger)
    (atMost : value ≤ larger) : easeOut value ≤ easeOut larger := by
  have one : (1 : Single).isFinite = true := inUnit_one.isFinite
  have finite : ∀ {other : Single}, InUnit other →
      (-(restOfEase other * restOfEase other / 2)).isFinite = true := by
    intro other unit
    obtain ⟨low, high⟩ := restOfEase_between unit
    have above := halfSquare_mono (le_refl zero_isNaN) low high
    have below := halfSquare_mono low high two_le_two
    rw [halfSquare_ends.1] at above
    rw [neg_isFinite, isFinite_of_between above below halfSquare_ends.2.2]
  have left := restOfEase_between inUnit
  have leftLarger := restOfEase_between inUnitLarger
  exact add_le_add (le_refl inUnit_one.isNaN)
    (neg_le_neg (halfSquare_mono leftLarger.1 (restOfEase_anti inUnit inUnitLarger atMost) left.2))
    one (finite inUnit) one (finite inUnitLarger)

/-- The branches meet at a half. -/
theorem ease_meets : easeIn half = half ∧ easeOut half = half := ⟨rfl, rfl⟩

theorem ease_ends : easeIn 0 = 0 ∧ easeOut 1 = 1 := ⟨rfl, rfl⟩

theorem easeIn_between (inUnit : InUnit value) (early : value ≤ half) :
    0 ≤ easeIn value ∧ easeIn value ≤ half := by
  have above := easeIn_mono inUnit_zero inUnit inUnit.nonnegative
  have below := easeIn_mono inUnit inUnit_half early
  rw [ease_ends.1] at above
  rw [ease_meets.1] at below
  exact ⟨above, below⟩

theorem easeOut_between (inUnit : InUnit value) (late : half ≤ value) :
    half ≤ easeOut value ∧ easeOut value ≤ 1 := by
  have above := easeOut_mono inUnit_half inUnit late
  have below := easeOut_mono inUnit inUnit_one inUnit.atMostOne
  rw [ease_meets.2] at above
  rw [ease_ends.2] at below
  exact ⟨above, below⟩

theorem easeInOut_cases (inUnit : InUnit value) :
    (value < half ∧ easeInOut value = easeIn value) ∨
      (half ≤ value ∧ easeInOut value = easeOut value) := by
  rw [easeInOut_of_inUnit inUnit]
  split
  next early => exact .inl ⟨early, rfl⟩
  next late => exact .inr ⟨le_of_not_lt inUnit_half.isNaN inUnit.isNaN late, rfl⟩

theorem easeInOut_inUnit (inUnit : InUnit value) : InUnit (easeInOut value) := by
  rcases easeInOut_cases inUnit with ⟨early, branch⟩ | ⟨late, branch⟩
  · obtain ⟨above, below⟩ := easeIn_between inUnit (le_of_lt early)
    rw [branch]
    exact ⟨above, le_trans below inUnit_half.atMostOne⟩
  · obtain ⟨above, below⟩ := easeOut_between inUnit late
    rw [branch]
    exact ⟨le_trans inUnit_half.nonnegative above, below⟩

theorem easeInOut_mono (inUnit : InUnit value) (inUnitLarger : InUnit larger)
    (atMost : value ≤ larger) : easeInOut value ≤ easeInOut larger := by
  rcases easeInOut_cases inUnit with ⟨early, branch⟩ | ⟨late, branch⟩
  · rcases easeInOut_cases inUnitLarger with ⟨_, branchLarger⟩ | ⟨lateLarger, branchLarger⟩
    · rw [branch, branchLarger]
      exact easeIn_mono inUnit inUnitLarger atMost
    · rw [branch, branchLarger]
      exact le_trans (easeIn_between inUnit (le_of_lt early)).2
        (easeOut_between inUnitLarger lateLarger).1
  · rcases easeInOut_cases inUnitLarger with ⟨earlyLarger, _⟩ | ⟨_, branchLarger⟩
    · exact absurd earlyLarger (not_lt_of_le (le_trans late atMost))
    · rw [branch, branchLarger]
      exact easeOut_mono inUnit inUnitLarger atMost

/-- Outside the unit interval the ease is that of its nearer end. -/
theorem easeInOut_clampUnit (isNumber : value.isNaN = false) :
    easeInOut value.clampUnit = easeInOut value := by
  rw [easeInOut, easeInOut, clampUnit_of_inUnit (clampUnit_inUnit isNumber)]

theorem easeInOut_zeroOf (negative : Bool) : easeInOut (zeroOf negative) = 0 := by
  cases negative <;> rfl

theorem easeInOut_of_le_zero (atMost : value ≤ 0) : easeInOut value = 0 := by
  rcases lt_or_equals_of_le atMost with below | zero
  · have clamped : value.clampUnit = zeroOf false := by
      rcases clampUnit_cases value with ⟨_, notBelow, _⟩ | ⟨start, _⟩ | ⟨_, above⟩
      · exact absurd below notBelow
      · exact start
      · exact absurd above (not_lt_of_le (le_trans atMost inUnit_one.nonnegative))
    rw [← easeInOut_clampUnit (isNaN_left_of_le atMost), clamped, easeInOut_zeroOf]
  · obtain ⟨negative, rfl⟩ := (finiteAt_of_equals_zero zero).eq_zeroOf
    exact easeInOut_zeroOf negative

theorem easeInOut_one : easeInOut 1 = 1 := rfl

theorem easeInOut_of_one_le (atLeast : 1 ≤ value) : easeInOut value = 1 := by
  rw [← easeInOut_clampUnit (isNaN_of_le atLeast), clampUnit_of_one_le atLeast, easeInOut_one]

theorem easeInOut_of_lt_half (early : value < half) :
    easeInOut value = easeIn value.clampUnit ∧ easeIn value.clampUnit ≤ half := by
  have isNumber := isNaN_left_of_le (le_of_lt early)
  have inUnit := clampUnit_inUnit isNumber
  have before : value.clampUnit < half := clampUnit_lt inUnit_half half_positive early
  rw [← easeInOut_clampUnit isNumber, easeInOut_of_inUnit inUnit, if_pos before]
  exact ⟨rfl, (easeIn_between inUnit (le_of_lt before)).2⟩

theorem easeInOut_of_half_le (late : half ≤ value) :
    easeInOut value = easeOut value.clampUnit ∧ half ≤ easeOut value.clampUnit := by
  have inUnit := clampUnit_inUnit (isNaN_of_le late)
  have after : half ≤ value.clampUnit := le_clampUnit inUnit_half late
  rw [← easeInOut_clampUnit (isNaN_of_le late), easeInOut_of_inUnit inUnit,
    if_neg (not_lt_of_le after)]
  exact ⟨rfl, (easeOut_between inUnit after).1⟩

/-- The ease takes the whole line, with both infinities, to the unit interval and keeps its
order.  It is zero up to zero and one from one on.  Up to a half it follows the first branch
and from there the second one; where they meet both give a half, and neither passes it on its
own side. -/
theorem ease_rises_without_step :
    (∀ early late : Single, early ≤ late →
      easeInOut early ≤ easeInOut late ∧ InUnit (easeInOut early) ∧ InUnit (easeInOut late)) ∧
    (∀ value : Single, value ≤ 0 → easeInOut value = 0) ∧
    (∀ value : Single, 1 ≤ value → easeInOut value = 1) ∧
    (easeIn half = half ∧ easeOut half = half) ∧
    ∀ early late : Single, early < half → half ≤ late →
      (easeInOut early = easeIn early.clampUnit ∧ easeIn early.clampUnit ≤ half) ∧
        easeInOut late = easeOut late.clampUnit ∧ half ≤ easeOut late.clampUnit := by
  refine ⟨?_, fun _ => easeInOut_of_le_zero, fun _ => easeInOut_of_one_le, ease_meets, ?_⟩
  · intro early late ordered
    have earlyNumber := isNaN_left_of_le ordered
    have lateNumber := isNaN_of_le ordered
    have inUnit := clampUnit_inUnit earlyNumber
    have inUnitLate := clampUnit_inUnit lateNumber
    rw [← easeInOut_clampUnit earlyNumber, ← easeInOut_clampUnit lateNumber]
    exact ⟨easeInOut_mono inUnit inUnitLate (clampUnit_mono ordered),
      easeInOut_inUnit inUnit, easeInOut_inUnit inUnitLate⟩
  · intro early late before after
    exact ⟨easeInOut_of_lt_half before, easeInOut_of_half_le after⟩

/-- From one infinity over both sides of a half to the other one. -/
theorem ease_rises_between_infinities :
    let low : Single := infinite true
    let early := ofRatio false 3 7
    let late := ofRatio false 4 7
    let high : Single := infinite false
    (low ≤ early ∧ easeInOut low ≤ easeInOut early) ∧
      (low ≤ 0 ∧ easeInOut low = 0) ∧ (1 ≤ high ∧ easeInOut high = 1) ∧
      early < half ∧ half ≤ late ∧ easeInOut early ≤ half ∧ half ≤ easeInOut late := by
  intro low early late high
  have ordered : low ≤ early := rfl
  have belowZero : low ≤ 0 := rfl
  have aboveOne : 1 ≤ high := rfl
  have before : early < half := rfl
  have after : half ≤ late := rfl
  obtain ⟨rises, starts, ends, _, meets⟩ := ease_rises_without_step
  obtain ⟨⟨first, firstBelow⟩, second, secondAbove⟩ := meets early late before after
  exact ⟨⟨ordered, (rises low early ordered).1⟩, ⟨belowZero, starts low belowZero⟩,
    ⟨aboveOne, ends high aboveOne⟩, before, after, first ▸ firstBelow, second ▸ secondAbove⟩

end Order

end LimbAnimation
