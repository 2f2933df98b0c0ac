/-!
# Rounding quotients

A quotient of natural numbers is rounded to the nearest natural number, or to
the nearest one with a bounded count of significant binary digits; of two
equally near ones the even one is taken.  The main statement is that the second
kind of rounding yields a number of the promised shape.
-/

namespace LimbAnimation

-- Inside this namespace a power of numbers is the one of the core library, also where Mathlib
-- offers the power of a monoid; an exponent that is a numeral needs its type for that.
attribute [scoped instance (1100)] instPowNat

/-- The natural number nearest to `numerator / denominator`; of two equally
near ones, the even one. -/
def roundHalfEven (numerator denominator : Nat) : Nat :=
  let quotient := numerator / denominator
  let remainder := numerator % denominator
  if 2 * remainder < denominator then quotient
  else if denominator < 2 * remainder then quotient + 1
  else quotient + quotient % 2

/-- The number nearest to `numerator / denominator` among those with at most
`precision` significant binary digits; of two equally near ones, the one whose
last significant digit is zero. -/
def roundSignificant (precision numerator denominator : Nat) : Nat :=
  let shift := (numerator / denominator).log2 + 1 - precision
  roundHalfEven numerator (denominator * 2 ^ shift) * 2 ^ shift

theorem roundHalfEven_le_succ_div (numerator denominator : Nat) :
    roundHalfEven numerator denominator ≤ numerator / denominator + 1 := by
  unfold roundHalfEven
  dsimp only
  split
  · omega
  · split
    · omega
    · have := Nat.mod_lt (numerator / denominator) (by decide : 2 > 0)
      omega

theorem roundHalfEven_mul_right (quotient denominator : Nat) (positive : 0 < denominator) :
    roundHalfEven (quotient * denominator) denominator = quotient := by
  unfold roundHalfEven
  dsimp only
  rw [Nat.mul_div_cancel _ positive, Nat.mul_mod_left]
  simp [positive]

private theorem quotient_lt_of_log2_shift (precision quotient : Nat) :
    quotient / 2 ^ (quotient.log2 + 1 - precision) < 2 ^ precision := by
  have below : quotient < 2 ^ (quotient.log2 + 1) := Nat.lt_log2_self
  rw [Nat.div_lt_iff_lt_mul (Nat.two_pow_pos _), ← Nat.pow_add]
  refine Nat.lt_of_lt_of_le below (Nat.pow_le_pow_right (by decide) ?_)
  omega

/-- Rounding to `precision` digits yields a number written with that many. -/
theorem roundSignificant_short (precision numerator denominator : Nat)
    (positive : 0 < precision) :
    ∃ significand exponent : Nat, significand < 2 ^ precision ∧
      roundSignificant precision numerator denominator = significand * 2 ^ exponent := by
  let shift := (numerator / denominator).log2 + 1 - precision
  have quotientBelow :
      numerator / (denominator * 2 ^ shift) < 2 ^ precision := by
    rw [← Nat.div_div_eq_div_mul]
    exact quotient_lt_of_log2_shift precision _
  have roundedBelow : roundHalfEven numerator (denominator * 2 ^ shift) ≤ 2 ^ precision :=
    Nat.le_trans (roundHalfEven_le_succ_div _ _) quotientBelow
  by_cases carried : roundHalfEven numerator (denominator * 2 ^ shift) = 2 ^ precision
  · refine ⟨1, precision + shift, Nat.one_lt_two_pow (by omega), ?_⟩
    show roundHalfEven numerator (denominator * 2 ^ shift) * 2 ^ shift = _
    rw [carried, Nat.pow_add, Nat.one_mul]
  · exact ⟨_, shift, Nat.lt_of_le_of_ne roundedBelow carried, rfl⟩

end LimbAnimation
