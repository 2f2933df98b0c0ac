import Mathlib.Tactic.Linarith
import Mathlib.Tactic.Ring
import LimbAnimation.Proofs.Rounding

/-!
# Rounding errors

Rounding to a number of binary digits moves a number by a small part of it.  Such errors
add up, and a number that lies close enough to one with few digits is rounded to it.
-/

namespace LimbAnimation

/-- Two numbers that differ by at most the part `2 ^ (-digits)` of the second. -/
structure Near (digits value target : Nat) : Prop where
  lower : 2 ^ digits * target ≤ 2 ^ digits * value + target
  upper : 2 ^ digits * value ≤ 2 ^ digits * target + target

namespace Near

variable {digits value target other : Nat}

theorem weaken {fewer : Nat} (near : Near digits value target) (atMost : fewer ≤ digits) :
    Near fewer value target := by
  obtain ⟨more, rfl⟩ := Nat.exists_eq_add_of_le atMost
  obtain ⟨lower, upper⟩ := near
  have positive := Nat.two_pow_pos more
  have grows : target ≤ 2 ^ more * target := Nat.le_mul_of_pos_left target positive
  rw [Nat.pow_add, Nat.mul_comm (2 ^ fewer), Nat.mul_assoc, Nat.mul_assoc] at lower upper
  constructor
  · apply Nat.le_of_mul_le_mul_left _ positive
    rw [Nat.mul_add]
    omega
  · apply Nat.le_of_mul_le_mul_left _ positive
    rw [Nat.mul_add]
    omega

theorem scale (near : Near digits value target) (factor : Nat) :
    Near digits (value * factor) (target * factor) := by
  obtain ⟨lower, upper⟩ := near
  constructor
  · have scaled := Nat.mul_le_mul_right factor lower
    rwa [Nat.add_mul, Nat.mul_assoc, Nat.mul_assoc] at scaled
  · have scaled := Nat.mul_le_mul_right factor upper
    rwa [Nat.add_mul, Nat.mul_assoc, Nat.mul_assoc] at scaled

theorem cancel {factor : Nat} (positive : 0 < factor)
    (near : Near digits (value * factor) (target * factor)) : Near digits value target := by
  obtain ⟨lower, upper⟩ := near
  rw [← Nat.mul_assoc, ← Nat.mul_assoc, ← Nat.add_mul] at lower upper
  exact ⟨Nat.le_of_mul_le_mul_right lower positive, Nat.le_of_mul_le_mul_right upper positive⟩

theorem le_twice (near : Near digits value target) : value ≤ 2 * target := by
  have positive := Nat.two_pow_pos digits
  have grows : target ≤ 2 ^ digits * target := Nat.le_mul_of_pos_left target positive
  have upper := near.upper
  apply Nat.le_of_mul_le_mul_left _ positive
  rw [Nat.mul_left_comm]
  omega

/-- Two errors together are at most four times as large as the larger one. -/
theorem trans (first : Near (digits + 2) value target) (second : Near (digits + 2) target other) :
    Near digits value other := by
  have bounded := second.le_twice
  obtain ⟨lower, upper⟩ := first
  obtain ⟨lowerOther, upperOther⟩ := second
  rw [Nat.pow_add] at lower upper lowerOther upperOther
  constructor <;> linarith

theorem symm (near : Near (digits + 1) value target) : Near digits target value := by
  have positive := Nat.two_pow_pos digits
  obtain ⟨lower, upper⟩ := near
  rw [Nat.pow_succ] at lower upper
  have bounded : target ≤ 2 * value := by
    apply Nat.le_of_mul_le_mul_left _ positive
    have grows : target ≤ 2 ^ digits * target := Nat.le_mul_of_pos_left target positive
    linarith
  constructor <;> linarith

end Near

section Rounding

variable {digits numerator denominator : Nat}

theorem roundHalfEven_error (numerator : Nat) (positive : 0 < denominator) :
    2 * numerator ≤ 2 * (roundHalfEven numerator denominator * denominator) + denominator ∧
      2 * (roundHalfEven numerator denominator * denominator) ≤ 2 * numerator + denominator := by
  have divided := Nat.div_add_mod' numerator denominator
  have remainder := Nat.mod_lt numerator positive
  unfold roundHalfEven
  dsimp only
  split
  next down => constructor <;> omega
  next =>
      split
      next up =>
          rw [Nat.add_mul (numerator / denominator) 1, Nat.one_mul]
          constructor <;> omega
      next half =>
          rcases Nat.mod_two_eq_zero_or_one (numerator / denominator) with even | odd
          · rw [even, Nat.add_zero]
            constructor <;> omega
          · rw [odd, Nat.add_mul (numerator / denominator) 1, Nat.one_mul]
            constructor <;> omega

/-- Of two equally near numbers the even one is taken. -/
theorem roundHalfEven_even_of_tie (positive : 0 < denominator)
    (tie : 2 * numerator = 2 * (roundHalfEven numerator denominator * denominator) + denominator ∨
      2 * (roundHalfEven numerator denominator * denominator) = 2 * numerator + denominator) :
    roundHalfEven numerator denominator % 2 = 0 := by
  have divided := Nat.div_add_mod' numerator denominator
  have remainder := Nat.mod_lt numerator positive
  revert tie
  unfold roundHalfEven
  dsimp only
  split
  next down => omega
  next =>
      split
      next up =>
          rw [Nat.add_mul (numerator / denominator) 1, Nat.one_mul]
          omega
      next half => omega

theorem near_roundHalfEven (positive : 0 < denominator)
    (large : 2 ^ digits * denominator ≤ 2 * numerator) :
    Near digits (roundHalfEven numerator denominator * denominator) numerator := by
  obtain ⟨lower, upper⟩ := roundHalfEven_error numerator positive
  generalize roundHalfEven numerator denominator * denominator = rounded at *
  have scaledLower := Nat.mul_le_mul_left (2 ^ digits) lower
  have scaledUpper := Nat.mul_le_mul_left (2 ^ digits) upper
  constructor <;> linarith

/-- Where digits are dropped, the error is small against what is left. -/
theorem large_of_dropped {shift : Nat} (positive : 0 < digits)
    (dropped : (numerator / denominator).log2 + 1 - digits = shift) (some : 0 < shift) :
    2 ^ digits * (denominator * 2 ^ shift) ≤ 2 * numerator := by
  have large := two_pow_le_of_dropped dropped some positive
  have quotient := Nat.div_mul_le_self numerator denominator
  rw [Nat.pow_add] at large
  have scaled := Nat.mul_le_mul_right denominator large
  linarith

theorem near_roundSignificant (positive : 0 < digits) (nonzero : 0 < denominator)
    (large : 2 ^ digits * denominator ≤ 2 * numerator) :
    Near digits (roundSignificant digits numerator denominator * denominator) numerator := by
  unfold roundSignificant
  dsimp only
  generalize dropped : (numerator / denominator).log2 + 1 - digits = shift
  rw [Nat.mul_assoc, Nat.mul_comm (2 ^ shift)]
  apply near_roundHalfEven (Nat.mul_pos nonzero (Nat.two_pow_pos shift))
  cases shift with
  | zero => rwa [Nat.pow_zero, Nat.mul_one]
  | succ shift => exact large_of_dropped positive dropped shift.succ_pos

/-- Whole numbers are rounded by a small part even when they are small. -/
theorem near_roundSignificant_one (positive : 0 < digits) (value : Nat) :
    Near digits (roundSignificant digits value 1) value := by
  unfold roundSignificant
  dsimp only
  generalize dropped : (value / 1).log2 + 1 - digits = shift
  rw [Nat.one_mul]
  cases shift with
  | zero =>
      have exact := roundHalfEven_mul_right value 1 Nat.one_pos
      rw [Nat.mul_one] at exact
      rw [Nat.pow_zero, Nat.mul_one, exact]
      constructor <;> omega
  | succ shift =>
      have large := large_of_dropped positive dropped shift.succ_pos
      rw [Nat.one_mul] at large
      exact near_roundHalfEven (Nat.two_pow_pos _) large

theorem roundHalfEven_eq {target : Nat} (positive : 0 < denominator)
    (lower : 2 * (target * denominator) < 2 * numerator + denominator)
    (upper : 2 * numerator < 2 * (target * denominator) + denominator) :
    roundHalfEven numerator denominator = target := by
  obtain ⟨atLeast, atMost⟩ := roundHalfEven_error numerator positive
  apply Nat.le_antisymm
  · apply Nat.le_of_lt_succ
    apply Nat.lt_of_mul_lt_mul_right (a := denominator)
    rw [Nat.succ_mul]
    omega
  · apply Nat.le_of_lt_succ
    apply Nat.lt_of_mul_lt_mul_right (a := denominator)
    rw [Nat.succ_mul]
    omega

/-- A quotient near a number with few digits is rounded to it: the numbers with that many
digits lie further apart. -/
theorem roundSignificant_eq_of_near {target : Nat} (positive : 0 < digits)
    (nonzero : 0 < denominator) (short : Short digits target)
    (near : Near (digits + 2) numerator (target * denominator)) :
    roundSignificant digits numerator denominator = target := by
  unfold roundSignificant
  dsimp only
  generalize dropped : (numerator / denominator).log2 + 1 - digits = shift
  have scaled := Nat.mul_pos nonzero (Nat.two_pow_pos shift)
  have part := Nat.two_pow_pos digits
  obtain ⟨factor, multiple⟩ : ∃ factor, target = factor * 2 ^ shift := by
    rcases Short.multiple_or_below short shift with multiple | ⟨some, below⟩
    · exact multiple
    · -- Numbers that are not multiples lie too far below the quotient.
      have large := Nat.mul_le_mul_left (2 ^ digits) (large_of_dropped positive dropped some)
      have upper := near.upper
      rw [Nat.pow_add] at below upper
      have wide := Nat.mul_le_mul_right denominator below
      have wider := Nat.mul_le_mul_left (2 ^ digits) wide
      have gap := Nat.mul_pos part scaled
      linarith
  have bounded : target * denominator < 2 * (2 ^ digits * (denominator * 2 ^ shift)) := by
    have quotient := Nat.lt_mul_div_succ numerator nonzero
    have small := Nat.mul_le_mul_left denominator (lt_two_pow_of_dropped dropped)
    rw [Nat.pow_add] at small
    have twice := near.symm.le_twice
    linarith
  have apart : roundHalfEven numerator (denominator * 2 ^ shift) = factor := by
    have same : factor * (denominator * 2 ^ shift) = target * denominator := by
      rw [multiple]
      ring
    obtain ⟨lower, upper⟩ := near
    rw [Nat.pow_add] at lower upper
    apply roundHalfEven_eq scaled
    · rw [same]
      apply Nat.lt_of_mul_lt_mul_left (a := 2 ^ digits)
      linarith
    · rw [same]
      apply Nat.lt_of_mul_lt_mul_left (a := 2 ^ digits)
      linarith
  rw [apart, multiple]

end Rounding

end LimbAnimation
