import LimbAnimation.Proofs.RoundingError
import LimbAnimation.Proofs.Single.TotalOrder

/-!
# Nearest numbers

No number that a single can hold is nearer to an exact result than the rounded one, and the
rounded one misses it by a small part only.  So a number is met, nearly, by adding its rounded
difference to where the difference was taken from; it is met exactly when what the rounding
added to the difference is too little to move it.  Nothing is added to a difference that is
not larger than either of the numbers.
-/

namespace LimbAnimation

/-- Of the numbers with few digits, none is nearer to a quotient than the rounded one. -/
theorem roundSignificant_nearest {digits denominator bound : Nat} (numerator : Nat)
    (positive : 0 < digits) (nonzero : 0 < denominator) (short : Short digits bound) :
    (((roundSignificant digits numerator denominator * denominator : Nat) : Int)
        - numerator).natAbs ≤ (((bound * denominator : Nat) : Int) - numerator).natAbs := by
  unfold roundSignificant
  dsimp only
  generalize dropped : (numerator / denominator).log2 + 1 - digits = shift
  rw [Nat.mul_assoc, Nat.mul_comm (2 ^ shift)]
  obtain ⟨atLeast, atMost⟩ :=
    roundHalfEven_error numerator (Nat.mul_pos nonzero (Nat.two_pow_pos shift))
  generalize roundHalfEven numerator (denominator * 2 ^ shift) = rounded at *
  rcases short.multiple_or_below shift with ⟨factor, rfl⟩ | ⟨some, below⟩
  · -- Both are multiples of one step, so they are the same or apart by it.
    rw [Nat.mul_assoc, Nat.mul_comm (2 ^ shift)]
    generalize denominator * 2 ^ shift = step at *
    rcases Nat.lt_trichotomy rounded factor with less | rfl | more
    · have apart := Nat.mul_le_mul_right step less
      rw [Nat.succ_mul] at apart
      omega
    · exact Nat.le_refl _
    · have apart := Nat.mul_le_mul_right step more
      rw [Nat.succ_mul] at apart
      omega
  · have large := large_of_dropped positive dropped some
    have scaled := Nat.mul_le_mul_right denominator below
    have steps : 2 ^ (digits + shift) * denominator =
        2 ^ digits * (denominator * 2 ^ shift) := by
      rw [Nat.pow_add]
      ring
    rw [steps, Nat.add_mul, Nat.mul_comm (2 ^ shift), Nat.mul_assoc] at scaled
    omega

/-- Both numbers are multiples of the smaller power of two, and so is what is between them;
as it is not larger than the number with that power, it has no more digits. -/
theorem short_between {digits significand significand' exponent exponent' value value' : Nat}
    {difference : Nat} (shape : value = significand * 2 ^ exponent)
    (shape' : value' = significand' * 2 ^ exponent') (fewDigits : significand < 2 ^ digits)
    (smaller : exponent ≤ exponent')
    (apart : value + difference = value' ∨ value' + difference = value)
    (close : difference ≤ value) : Short digits difference := by
  have divides : 2 ^ exponent ∣ value := shape ▸ Nat.dvd_mul_left _ _
  have divides' : 2 ^ exponent ∣ value' :=
    shape' ▸ Nat.dvd_mul_left_of_dvd (Nat.pow_dvd_pow 2 smaller) _
  have multiple : 2 ^ exponent ∣ difference := by
    rcases apart with above | below
    · exact (Nat.dvd_add_right divides).mp (above ▸ divides')
    · exact (Nat.dvd_add_right divides').mp (below ▸ divides)
  obtain ⟨factor, rfl⟩ := multiple
  rw [shape, Nat.mul_comm (2 ^ exponent)] at close
  have atMost : factor ≤ significand :=
    Nat.le_of_mul_le_mul_right close (Nat.two_pow_pos exponent)
  exact ⟨factor, exponent, Nat.lt_of_le_of_lt atMost fewDigits, Nat.mul_comm _ _⟩

namespace Single

theorem Fits.sub_of_close {start goal : Int} (startFits : Fits start.natAbs)
    (goalFits : Fits goal.natAbs)
    (close : (goal - start).natAbs ≤ min start.natAbs goal.natAbs) :
    Fits (goal - start).natAbs := by
  have inRange := startFits.bounded
  obtain ⟨significand, exponent, digits, isStart⟩ := startFits.short
  obtain ⟨significand', exponent', digits', isGoal⟩ := goalFits.short
  refine ⟨by omega, ?_⟩
  rcases Nat.le_total exponent exponent' with smaller | smaller
  · exact short_between isStart isGoal digits smaller (by omega) (by omega)
  · exact short_between isGoal isStart digits' smaller (by omega) (by omega)

theorem Fits.roundedRank_nearest {rank bound : Int} (fits : Fits bound.natAbs) :
    (roundedRank rank - rank).natAbs ≤ (bound - rank).natAbs := by
  have near : ((roundSignificant 24 rank.natAbs 1 : Int) - rank.natAbs).natAbs ≤
      ((bound.natAbs : Int) - rank.natAbs).natAbs := by
    have nearest := roundSignificant_nearest rank.natAbs (by decide) Nat.one_pos fits.short
    rwa [Nat.mul_one, Nat.mul_one] at nearest
  have limited := fits.bounded
  have beyond : unitsLimit ≤ rank.natAbs → unitsLimit ≤ roundSignificant 24 rank.natAbs 1 :=
    fun far => le_roundSignificant (by decide) Nat.one_pos short_unitsLimit (by omega)
  have within : rank.natAbs ≤ unitsLimit → roundSignificant 24 rank.natAbs 1 ≤ unitsLimit :=
    fun close => roundSignificant_le (by decide) short_unitsLimit (by omega)
  unfold roundedRank signedUnits
  generalize roundSignificant 24 rank.natAbs 1 = rounded at *
  by_cases negative : rank < 0
  · simp only [negative, decide_true, if_true]
    omega
  · simp only [negative, decide_false, Bool.false_eq_true, if_false]
    omega

/-- A rank that is not rounded beyond all numbers is rounded by a small part of it. -/
theorem roundedRank_error {rank : Int} (inRange : (roundedRank rank).natAbs < unitsLimit) :
    2 ^ 24 * (roundedRank rank - rank).natAbs ≤ rank.natAbs := by
  obtain ⟨atLeast, atMost⟩ := near_roundSignificant_one (by decide : 0 < 24) rank.natAbs
  unfold roundedRank signedUnits at *
  generalize roundSignificant 24 rank.natAbs 1 = rounded at *
  by_cases negative : rank < 0
  · simp only [negative, decide_true, if_true] at inRange ⊢
    omega
  · simp only [negative, decide_false, Bool.false_eq_true, if_false] at inRange ⊢
    omega

/-- What rounding adds to the difference of two ranks. -/
def drift (start goal : Int) : Int := roundedRank (goal - start) - (goal - start)

/-- What is shown at the end of the way from a start to a goal, told by ranks.  The goal is met
when its difference from the start is not rounded, so in particular when the way is not longer
than the ways of both ends from zero, or else when the sum with the rounded difference is
rounded back to it; and it is never missed by more than a small part of the way. -/
structure Arrives (start goal shown : Int) : Prop where
  eq_of_fits : Fits (goal - start).natAbs → shown = goal
  eq_of_close : (goal - start).natAbs ≤ min start.natAbs goal.natAbs → shown = goal
  eq_iff : shown = goal ↔ roundedRank (goal + drift start goal) = goal
  near : 2 ^ 23 * (shown - goal).natAbs ≤ (goal - start).natAbs

theorem arrives {start goal : Int} (startFits : Fits start.natAbs) (goalFits : Fits goal.natAbs)
    (inRange : (roundedRank (goal - start)).natAbs < unitsLimit) :
    Arrives start goal (roundedRank (start + roundedRank (goal - start))) := by
  have sum : start + roundedRank (goal - start) = goal + drift start goal := by
    unfold drift
    omega
  have exact : Fits (goal - start).natAbs → roundedRank (goal + drift start goal) = goal := by
    intro fits
    rw [drift, fits.roundedRank_eq, Int.sub_self, Int.add_zero, goalFits.roundedRank_eq]
  rw [sum]
  refine ⟨exact, ?_, Iff.rfl, ?_⟩
  · intro close
    exact exact (startFits.sub_of_close goalFits close)
  · -- The goal itself is as near to the exact sum as the drift is long.
    have nearest : (roundedRank (goal + drift start goal) - (goal + drift start goal)).natAbs ≤
        (goal - (goal + drift start goal)).natAbs := goalFits.roundedRank_nearest
    have small : 2 ^ 24 * (drift start goal).natAbs ≤ (goal - start).natAbs :=
      roundedRank_error inRange
    omega

end Single

end LimbAnimation
