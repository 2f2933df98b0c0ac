import Mathlib.Algebra.Group.Nat.Defs
import LimbAnimation.Rounding

/-!
# Bounds on rounded quotients

Rounding never passes a number that it could have yielded: a quotient below such a
number is not rounded above it, and the other way round.
-/

namespace LimbAnimation

theorem roundHalfEven_le {numerator denominator bound : Nat}
    (below : numerator ≤ bound * denominator) : roundHalfEven numerator denominator ≤ bound := by
  rcases Nat.eq_zero_or_pos denominator with rfl | positive
  · have nothing : numerator = 0 := by omega
    simp [nothing, roundHalfEven]
  · have quotient : numerator / denominator ≤ bound :=
      Nat.div_le_of_le_mul (Nat.mul_comm bound denominator ▸ below)
    rcases Nat.lt_or_eq_of_le quotient with less | same
    · exact Nat.le_trans (roundHalfEven_le_succ_div _ _) less
    · have divided := Nat.div_add_mod numerator denominator
      rw [same, Nat.mul_comm denominator bound] at divided
      have exact : numerator = bound * denominator := by omega
      exact Nat.le_of_eq (exact ▸ roundHalfEven_mul_right bound denominator positive)

theorem div_le_roundHalfEven (numerator denominator : Nat) :
    numerator / denominator ≤ roundHalfEven numerator denominator := by
  unfold roundHalfEven
  dsimp only
  split
  · omega
  · split <;> omega

theorem le_roundHalfEven {numerator denominator bound : Nat} (positive : 0 < denominator)
    (above : bound * denominator ≤ numerator) : bound ≤ roundHalfEven numerator denominator :=
  Nat.le_trans ((Nat.le_div_iff_mul_le positive).mpr above) (div_le_roundHalfEven _ _)

/-- A number with at most `precision` significant binary digits. -/
def Short (precision value : Nat) : Prop :=
  ∃ significand exponent : Nat, significand < 2 ^ precision ∧ value = significand * 2 ^ exponent

/-- A number with few digits is a multiple of a power of two, or lies below the numbers that
have all their digits before it. -/
theorem Short.multiple_or_below {precision value : Nat} (short : Short precision value)
    (shift : Nat) :
    (∃ factor, value = factor * 2 ^ shift) ∨
      (0 < shift ∧ 2 * value + 2 ^ shift ≤ 2 ^ (precision + shift)) := by
  obtain ⟨significand, exponent, digits, rfl⟩ := short
  rcases Nat.lt_or_ge exponent shift with less | enough
  · refine .inr ⟨Nat.zero_lt_of_lt less, ?_⟩
    calc 2 * (significand * 2 ^ exponent) + 2 ^ shift
        = significand * 2 ^ (exponent + 1) + 2 ^ shift := by rw [Nat.mul_left_comm, Nat.pow_succ']
      _ ≤ significand * 2 ^ shift + 2 ^ shift :=
          Nat.add_le_add_right
            (Nat.mul_le_mul_left _ (Nat.pow_le_pow_right (by decide) less)) _
      _ = (significand + 1) * 2 ^ shift := (Nat.succ_mul _ _).symm
      _ ≤ 2 ^ precision * 2 ^ shift := Nat.mul_le_mul_right _ digits
      _ = 2 ^ (precision + shift) := (Nat.pow_add _ _ _).symm
  · refine .inl ⟨significand * 2 ^ (exponent - shift), ?_⟩
    rw [Nat.mul_assoc, ← Nat.pow_add, Nat.sub_add_cancel enough]

/-- A number with few digits is a multiple of a power of two, or small against it. -/
theorem Short.multiple_or_small {precision value : Nat} (short : Short precision value)
    (shift : Nat) :
    (∃ factor, value = factor * 2 ^ shift) ∨
      (0 < shift ∧ 2 * value < 2 ^ (precision + shift)) := by
  rcases short.multiple_or_below shift with multiple | ⟨some, below⟩
  · exact .inl multiple
  · have positive := Nat.two_pow_pos shift
    exact .inr ⟨some, by omega⟩

/-- A quotient from which digits are dropped is large. -/
theorem two_pow_le_of_dropped {precision quotient shift : Nat}
    (dropped : quotient.log2 + 1 - precision = shift) (some : 0 < shift)
    (positive : 0 < precision) : 2 ^ (precision + shift) ≤ 2 * quotient := by
  have digits : precision + shift = quotient.log2 + 1 := by omega
  have nonzero : quotient ≠ 0 := by
    rintro rfl
    rw [Nat.log2_zero] at dropped
    omega
  rw [digits, Nat.pow_succ']
  exact Nat.mul_le_mul_left 2 (Nat.log2_self_le nonzero)

theorem lt_two_pow_of_dropped {precision quotient shift : Nat}
    (dropped : quotient.log2 + 1 - precision = shift) : quotient < 2 ^ (precision + shift) :=
  Nat.lt_of_lt_of_le Nat.lt_log2_self (Nat.pow_le_pow_right (by decide) (by omega))

section Bounds

variable {precision numerator denominator bound : Nat}

theorem roundSignificant_le (positive : 0 < precision) (short : Short precision bound)
    (below : numerator ≤ bound * denominator) :
    roundSignificant precision numerator denominator ≤ bound := by
  unfold roundSignificant
  dsimp only
  generalize dropped : (numerator / denominator).log2 + 1 - precision = shift
  rcases short.multiple_or_small shift with ⟨factor, rfl⟩ | ⟨some, small⟩
  · refine Nat.mul_le_mul_right _ (roundHalfEven_le ?_)
    rwa [Nat.mul_comm denominator, ← Nat.mul_assoc]
  · have large := two_pow_le_of_dropped dropped some positive
    have quotient : numerator / denominator ≤ bound :=
      Nat.div_le_of_le_mul (Nat.mul_comm bound denominator ▸ below)
    omega

theorem le_roundSignificant (positive : 0 < precision) (nonzero : 0 < denominator)
    (short : Short precision bound) (above : bound * denominator ≤ numerator) :
    bound ≤ roundSignificant precision numerator denominator := by
  unfold roundSignificant
  dsimp only
  generalize dropped : (numerator / denominator).log2 + 1 - precision = shift
  have scaled : 0 < denominator * 2 ^ shift := Nat.mul_pos nonzero (Nat.two_pow_pos _)
  rcases short.multiple_or_small shift with ⟨factor, rfl⟩ | ⟨some, small⟩
  · refine Nat.mul_le_mul_right _ (le_roundHalfEven scaled ?_)
    rwa [Nat.mul_comm denominator, ← Nat.mul_assoc]
  · -- The quotient has all its digits, and the smallest number with them is beyond the bound.
    have large := two_pow_le_of_dropped dropped some positive
    obtain ⟨digits, rfl⟩ : ∃ digits, precision = digits + 1 := ⟨precision - 1, by omega⟩
    have power : 2 ^ (digits + 1 + shift) = 2 * (2 ^ digits * 2 ^ shift) := by
      rw [Nat.add_right_comm, Nat.pow_succ', Nat.pow_add]
    rw [power] at large small
    have reached : 2 ^ digits ≤ roundHalfEven numerator (denominator * 2 ^ shift) := by
      apply le_roundHalfEven scaled
      rw [Nat.mul_left_comm, Nat.mul_comm denominator]
      exact (Nat.le_div_iff_mul_le nonzero).mp (by omega)
    have := Nat.mul_le_mul_right (2 ^ shift) reached
    omega

theorem roundSignificant_zero (positive : 0 < precision) :
    roundSignificant precision 0 denominator = 0 :=
  Nat.le_zero.mp (roundSignificant_le positive ⟨0, 0, Nat.two_pow_pos _, rfl⟩ (Nat.zero_le _))

end Bounds

section Monotone

variable {precision numerator larger denominator : Nat}

theorem roundHalfEven_mono (atMost : numerator ≤ larger) (denominator : Nat) :
    roundHalfEven numerator denominator ≤ roundHalfEven larger denominator := by
  rcases Nat.lt_or_eq_of_le (Nat.div_le_div_right (c := denominator) atMost) with less | same
  · calc roundHalfEven numerator denominator
        ≤ numerator / denominator + 1 := roundHalfEven_le_succ_div _ _
      _ ≤ larger / denominator := less
      _ ≤ roundHalfEven larger denominator := div_le_roundHalfEven _ _
  · have divided := Nat.div_add_mod numerator denominator
    have dividedLarger := Nat.div_add_mod larger denominator
    rw [← same] at dividedLarger
    have remainders : numerator % denominator ≤ larger % denominator := by omega
    unfold roundHalfEven
    dsimp only
    rw [← same]
    repeat' split
    all_goals omega

/-- Numbers that drop as many digits are rounded on one grid.  Between others lies a power
of two, which rounding does not pass. -/
theorem roundSignificant_mono (positive : 0 < precision) (nonzero : 0 < denominator)
    (atMost : numerator ≤ larger) :
    roundSignificant precision numerator denominator ≤
      roundSignificant precision larger denominator := by
  have quotients : numerator / denominator ≤ larger / denominator := Nat.div_le_div_right atMost
  generalize dropped : (numerator / denominator).log2 + 1 - precision = shift
  generalize droppedLarger : (larger / denominator).log2 + 1 - precision = shiftLarger
  have below := lt_two_pow_of_dropped dropped
  rcases Nat.lt_trichotomy shift shiftLarger with less | rfl | more
  · have above := two_pow_le_of_dropped droppedLarger (by omega) positive
    obtain ⟨exponent, power⟩ : ∃ exponent, precision + shiftLarger = exponent + 1 :=
      ⟨precision + shiftLarger - 1, by omega⟩
    rw [power, Nat.pow_succ'] at above
    have between : numerator / denominator < 2 ^ exponent :=
      Nat.lt_of_lt_of_le below (Nat.pow_le_pow_right (by decide) (by omega))
    have short : Short precision (2 ^ exponent) :=
      ⟨1, exponent, Nat.one_lt_two_pow (by omega), (Nat.one_mul _).symm⟩
    calc roundSignificant precision numerator denominator
        ≤ 2 ^ exponent :=
          roundSignificant_le positive short
            (Nat.le_of_lt ((Nat.div_lt_iff_lt_mul nonzero).mp between))
      _ ≤ roundSignificant precision larger denominator :=
          le_roundSignificant positive nonzero short
            ((Nat.le_div_iff_mul_le nonzero).mp (by omega))
  · unfold roundSignificant
    dsimp only
    rw [dropped, droppedLarger]
    exact Nat.mul_le_mul_right _ (roundHalfEven_mono atMost _)
  · have above := two_pow_le_of_dropped dropped (by omega) positive
    have belowLarger := lt_two_pow_of_dropped droppedLarger
    have powers : 2 ^ (precision + shiftLarger + 1) ≤ 2 ^ (precision + shift) :=
      Nat.pow_le_pow_right (by decide) (by omega)
    rw [Nat.pow_succ'] at powers
    omega

end Monotone

end LimbAnimation
