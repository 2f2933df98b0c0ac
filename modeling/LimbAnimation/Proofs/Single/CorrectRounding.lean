import Mathlib.Algebra.Order.Field.Rat
import Mathlib.Tactic.FieldSimp
import Mathlib.Tactic.NormNum
import Mathlib.Tactic.Positivity
import LimbAnimation.Proofs.Single.Differences
import LimbAnimation.Proofs.Single.Nearest

/-!
# Correct rounding

What it means for a single to be the one nearest to an exact number, with ties going to the
one whose last bit is zero, told by rational numbers and not by the way of rounding.  The
single nearest to a quotient is the rounded quotient, and there is no other one of its sign.
A quotient is rounded to an infinity exactly from halfway to the first number out of range on.
-/

namespace LimbAnimation

namespace Single

section Ties

variable {numerator denominator bound : Nat}

/-- The leading digits of a magnitude from which a power of two is split off: 24 of them when
there is such a power, or one more after a carry. -/
structure Leads (leading shift : Nat) : Prop where
  atMost : leading ≤ 2 ^ 24
  full : 0 < shift → 2 ^ 23 ≤ leading

theorem Leads.log2_eq {leading shift : Nat} (leads : Leads leading shift)
    (noCarry : leading < 2 ^ 24) : (leading * 2 ^ shift).log2 - 23 = shift := by
  cases shift with
  | zero =>
      rw [Nat.pow_zero, Nat.mul_one]
      rcases Nat.eq_zero_or_pos leading with rfl | positive
      · rfl
      · have few : leading.log2 < 24 := (Nat.log2_lt positive.ne').mpr noCarry
        omega
  | succ shift =>
      have enough := leads.full shift.succ_pos
      have nonzero : leading * 2 ^ (shift + 1) ≠ 0 :=
        (Nat.mul_pos (by omega) (Nat.two_pow_pos _)).ne'
      have atLeast : 23 + (shift + 1) ≤ (leading * 2 ^ (shift + 1)).log2 := by
        rw [Nat.le_log2 nonzero, Nat.pow_add]
        exact Nat.mul_le_mul_right _ enough
      have below : (leading * 2 ^ (shift + 1)).log2 < 24 + (shift + 1) := by
        rw [Nat.log2_lt nonzero, Nat.pow_add 2 24]
        exact Nat.mul_lt_mul_of_pos_right noCarry (Nat.two_pow_pos _)
      omega

/-- The bits end in the leading digits, also after a carry. -/
theorem Leads.magnitudeBits_eq {leading shift : Nat} (leads : Leads leading shift) :
    magnitudeBits (leading * 2 ^ shift) = shift * 2 ^ 23 + leading := by
  rcases Nat.lt_or_eq_of_le leads.atMost with noCarry | rfl
  · rw [magnitudeBits, leads.log2_eq noCarry, Nat.mul_div_cancel _ (Nat.two_pow_pos shift)]
  · have carried : Leads (2 ^ 23) (shift + 1) := ⟨by decide, fun _ => Nat.le_refl _⟩
    have same : 2 ^ 24 * 2 ^ shift = 2 ^ 23 * 2 ^ (shift + 1) := by
      rw [Nat.pow_succ 2 shift]
      omega
    rw [same, magnitudeBits, carried.log2_eq (by decide),
      Nat.mul_div_cancel _ (Nat.two_pow_pos _)]
    omega

theorem eq_succ_of_close {low high step : Nat} (positive : 0 < step) (less : low < high)
    (close : high * step ≤ low * step + step) : high = low + 1 := by
  rw [← Nat.succ_mul] at close
  exact Nat.le_antisymm (Nat.le_of_mul_le_mul_right close positive) less

theorem twice_add_one_mul (lower step : Nat) :
    (2 * lower + 1) * step = 2 * (lower * step) + step := by
  rw [Nat.succ_mul, Nat.mul_assoc]

/-- What is as near to a quotient as the rounded number, without being it, is its neighbour on
the other side of the quotient. -/
theorem halfway_of_tie {other : Nat} (positive : 0 < denominator)
    (different : other ≠ roundHalfEven numerator denominator)
    (near : (((other * denominator : Nat) : Int) - numerator).natAbs ≤
      (((roundHalfEven numerator denominator * denominator : Nat) : Int) - numerator).natAbs) :
    roundHalfEven numerator denominator % 2 = 0 ∧
      ∃ lower, 2 * numerator = (2 * lower + 1) * denominator ∧
        (roundHalfEven numerator denominator = lower ∧ other = lower + 1 ∨
          roundHalfEven numerator denominator = lower + 1 ∧ other = lower) := by
  have even := @roundHalfEven_even_of_tie numerator _ positive
  obtain ⟨atLeast, atMost⟩ := roundHalfEven_error numerator positive
  generalize roundHalfEven numerator denominator = rounded at *
  rcases Nat.lt_or_gt_of_ne different with less | more
  · obtain rfl := eq_succ_of_close positive less (by omega)
    have next : (other + 1) * denominator = other * denominator + denominator :=
      Nat.succ_mul other denominator
    have twice := twice_add_one_mul other denominator
    exact ⟨even (.inr (by omega)), other, by omega, .inr ⟨rfl, rfl⟩⟩
  · obtain rfl := eq_succ_of_close positive more (by omega)
    have next : (rounded + 1) * denominator = rounded * denominator + denominator :=
      Nat.succ_mul rounded denominator
    have twice := twice_add_one_mul rounded denominator
    exact ⟨even (.inl (by omega)), rounded, by omega, .inl ⟨rfl, rfl⟩⟩

/-- The two neighbours of a number halfway between them. -/
theorem leads_of_halfway {lower shift step : Nat} (positive : 0 < step)
    (halfway : 2 * numerator = (2 * lower + 1) * step) (below : numerator < 2 ^ 24 * step)
    (large : 0 < shift → 2 ^ 24 * step ≤ 2 * numerator) :
    Leads lower shift ∧ Leads (lower + 1) shift := by
  have few : 2 * lower + 1 < 2 * 2 ^ 24 := by
    apply Nat.lt_of_mul_lt_mul_right (a := step)
    omega
  have full (some : 0 < shift) : 2 ^ 24 ≤ 2 * lower + 1 := by
    apply Nat.le_of_mul_le_mul_right _ positive
    rw [← halfway]
    exact large some
  constructor
  · exact ⟨by omega, fun some => by have := full some; omega⟩
  · exact ⟨by omega, fun some => by have := full some; omega⟩

/-- A number with few digits that is as near to a quotient as the rounded one, without being
it, ends in an odd bit, and the rounded one in an even bit. -/
theorem bits_of_tie (nonzero : 0 < denominator) (short : Short 24 bound)
    (different : bound ≠ roundSignificant 24 numerator denominator)
    (near : (((bound * denominator : Nat) : Int) - numerator).natAbs ≤
      (((roundSignificant 24 numerator denominator * denominator : Nat) : Int)
        - numerator).natAbs) :
    magnitudeBits (roundSignificant 24 numerator denominator) % 2 = 0 ∧
      magnitudeBits bound % 2 = 1 := by
  unfold roundSignificant at different near ⊢
  dsimp only at different near ⊢
  generalize dropped : (numerator / denominator).log2 + 1 - 24 = shift at *
  have positive : 0 < denominator * 2 ^ shift := Nat.mul_pos nonzero (Nat.two_pow_pos shift)
  have large := large_of_dropped (by decide) dropped
  rw [Nat.mul_assoc, Nat.mul_comm (2 ^ shift)] at near
  rcases short.multiple_or_below shift with ⟨factor, rfl⟩ | ⟨some, small⟩
  · rw [Nat.mul_assoc, Nat.mul_comm (2 ^ shift)] at near
    have below : numerator < 2 ^ 24 * (denominator * 2 ^ shift) := by
      have quotient := (Nat.div_lt_iff_lt_mul nonzero).mp (lt_two_pow_of_dropped dropped)
      rwa [Nat.pow_add, Nat.mul_assoc, Nat.mul_comm (2 ^ shift)] at quotient
    obtain ⟨even, lower, halfway, sides⟩ :=
      halfway_of_tie positive (fun same => different (same ▸ rfl)) near
    obtain ⟨leads, leadsNext⟩ := leads_of_halfway positive halfway below large
    rcases sides with ⟨rounded, rfl⟩ | ⟨rounded, rfl⟩
    · rw [rounded] at even ⊢
      rw [leads.magnitudeBits_eq, leadsNext.magnitudeBits_eq]
      omega
    · rw [rounded] at even ⊢
      rw [leads.magnitudeBits_eq, leadsNext.magnitudeBits_eq]
      omega
  · -- A number below all those with 24 digits is further away than half a step, unless the
    -- quotient is the least of these and is not rounded.
    have scaled := Nat.mul_le_mul_right denominator small
    have steps : 2 ^ (24 + shift) * denominator = 2 ^ 24 * (denominator * 2 ^ shift) := by
      rw [Nat.pow_add]
      ring
    rw [steps, Nat.add_mul, Nat.mul_comm (2 ^ shift), Nat.mul_assoc] at scaled
    have reached := large some
    obtain ⟨atLeast, atMost⟩ := roundHalfEven_error numerator positive
    have boundary : numerator = 2 ^ 23 * (denominator * 2 ^ shift) := by omega
    have exact := roundHalfEven_mul_right (2 ^ 23) _ positive
    rw [← boundary] at exact
    rw [exact] at near
    omega

end Ties

section Range

variable {numerator denominator : Nat}

/-- Rounding stays in range below halfway from the largest single to the first number out of
range; halfway the latter is taken, as its last bit is zero. -/
theorem roundSignificant_lt_unitsLimit_iff (positive : 0 < denominator) :
    roundSignificant 24 numerator denominator < unitsLimit ↔
      2 * numerator < (largestUnits + unitsLimit) * denominator := by
  have apart : largestUnits * denominator < unitsLimit * denominator :=
    Nat.mul_lt_mul_of_pos_right (by decide) positive
  rw [Nat.add_mul]
  constructor
  · intro inRange
    apply Nat.lt_of_not_le
    intro far
    have atMost := Nat.mul_le_mul_right denominator (fits_roundSignificant inRange).le_largestUnits
    have below := Nat.mul_lt_mul_of_pos_right inRange positive
    have nearest := roundSignificant_nearest numerator (by decide) positive short_unitsLimit
    have odd := (bits_of_tie positive short_unitsLimit inRange.ne' (by omega)).2
    rw [magnitudeBits_unitsLimit] at odd
    omega
  · intro close
    apply Nat.lt_of_not_le
    intro beyond
    have atLeast := Nat.mul_le_mul_right denominator beyond
    have nearest := roundSignificant_nearest numerator (by decide) positive fits_largestUnits.short
    omega

end Range

section Distances

/-- A size with a sign. -/
def signed (negative : Bool) (size : ℚ) : ℚ := if negative then -size else size

theorem abs_signed (negative : Bool) (size : ℚ) : |signed negative size| = |size| := by
  cases negative with
  | false => rfl
  | true => exact abs_neg size

/-- The exact number that a finite single is; zero for the others. -/
def toRat : Single → ℚ
  | .finite negative magnitude _ => (signedUnits negative magnitude : ℚ) / unitsPerOne
  | _ => 0

theorem FiniteAt.toRat {number : Single} {rank : Int} (numberAt : FiniteAt number rank) :
    number.toRat = (rank : ℚ) / unitsPerOne := by
  obtain ⟨negative, magnitude, fits, rfl, rfl⟩ := numberAt.exists_eq
  rfl

/-- A finite single nearest to an exact number.  Of two that are equally near it is the one
whose last bit is zero. -/
structure IsNearest (exact : ℚ) (number : Single) : Prop where
  finite : number.isFinite = true
  closest : ∀ other : Single, other.isFinite = true →
    |number.toRat - exact| ≤ |other.toRat - exact|
  even : ∀ other : Single, other.isFinite = true → other.toRat ≠ number.toRat →
    |other.toRat - exact| = |number.toRat - exact| → number.toBits % 2 = 0

/-- From here on numbers are rounded to an infinity.  It is halfway from the largest single to
the first number out of range. -/
def overflowBound : ℚ := 2 ^ 128 - 2 ^ 103

theorem unitsPerOne_pos : (0 : ℚ) < unitsPerOne := Nat.cast_pos.mpr (Nat.two_pow_pos 149)

theorem overflowBound_eq :
    overflowBound = ((largestUnits + unitsLimit : Nat) : ℚ) / (2 * unitsPerOne) := by
  norm_num [overflowBound, largestUnits, unitsLimit, unitsPerOne]

theorem ratio_lt_overflowBound_iff {numerator denominator : Nat} (positive : 0 < denominator) :
    (numerator / denominator : ℚ) < overflowBound ↔
      2 * (numerator * unitsPerOne) < (largestUnits + unitsLimit) * denominator := by
  have unit := unitsPerOne_pos
  have part : (0 : ℚ) < denominator := Nat.cast_pos.mpr positive
  rw [overflowBound_eq, div_lt_div_iff₀ part (by positivity), ← Nat.cast_lt (α := ℚ)]
  push_cast
  rw [show (numerator : ℚ) * (2 * unitsPerOne) = 2 * (numerator * unitsPerOne) by ring]

variable {negative : Bool} {numerator denominator : Nat}

/-- The distance of a rank from a quotient, told by whole numbers. -/
theorem abs_sub_signed (positive : 0 < denominator) (rank : Int) :
    |(rank : ℚ) / unitsPerOne - signed negative (numerator / denominator)| =
      ((rank * denominator - signedUnits negative (numerator * unitsPerOne)).natAbs : ℚ) /
        (unitsPerOne * denominator) := by
  have unit := unitsPerOne_pos
  have part : (0 : ℚ) < denominator := Nat.cast_pos.mpr positive
  have scaled : (rank : ℚ) / unitsPerOne - signed negative (numerator / denominator) =
      ((rank * denominator - signedUnits negative (numerator * unitsPerOne) : Int) : ℚ) /
        (unitsPerOne * denominator) := by
    cases negative <;> simp only [signed, signedUnits, Bool.false_eq_true, if_false, if_true] <;>
      push_cast <;> field_simp
  rw [scaled, abs_div, abs_of_pos (mul_pos unit part), Nat.cast_natAbs, Int.cast_abs]

theorem FiniteAt.toRat_inj {left right : Single} {leftRank rightRank : Int}
    (leftAt : FiniteAt left leftRank) (rightAt : FiniteAt right rightRank) :
    left.toRat = right.toRat ↔ leftRank = rightRank := by
  rw [leftAt.toRat, rightAt.toRat, div_left_inj' unitsPerOne_pos.ne', Int.cast_inj]

theorem FiniteAt.toRat_le_toRat {left right : Single} {leftRank rightRank : Int}
    (leftAt : FiniteAt left leftRank) (rightAt : FiniteAt right rightRank) :
    left.toRat ≤ right.toRat ↔ left ≤ right := by
  rw [leftAt.toRat, rightAt.toRat, div_le_div_iff_of_pos_right unitsPerOne_pos, Int.cast_le,
    leftAt.le_iff rightAt]

theorem FiniteAt.abs_sub_le_abs_sub {left right : Single} {leftRank rightRank : Int}
    (positive : 0 < denominator) (leftAt : FiniteAt left leftRank)
    (rightAt : FiniteAt right rightRank) :
    |left.toRat - signed negative (numerator / denominator)| ≤
        |right.toRat - signed negative (numerator / denominator)| ↔
      (leftRank * denominator - signedUnits negative (numerator * unitsPerOne)).natAbs ≤
        (rightRank * denominator - signedUnits negative (numerator * unitsPerOne)).natAbs := by
  have part : (0 : ℚ) < denominator := Nat.cast_pos.mpr positive
  rw [leftAt.toRat, rightAt.toRat, abs_sub_signed positive, abs_sub_signed positive,
    div_le_div_iff_of_pos_right (mul_pos unitsPerOne_pos part), Nat.cast_le]

theorem FiniteAt.toBits_mod_two {number : Single} {rank : Int} (numberAt : FiniteAt number rank) :
    number.toBits % 2 = magnitudeBits rank.natAbs % 2 := by
  obtain ⟨negative, magnitude, fits, rfl, rfl⟩ := numberAt.exists_eq
  rw [natAbs_signedUnits, toBits, unsignedBits]
  split <;> omega

end Distances

section Signs

variable {negative : Bool} {numerator denominator : Nat} {rank : Int}

theorem natAbs_signedUnits_sub (negative : Bool) (magnitude size step : Nat) :
    (signedUnits negative magnitude * step - signedUnits negative size).natAbs =
      (((magnitude * step : Nat) : Int) - size).natAbs := by
  cases negative <;> simp only [signedUnits, Bool.false_eq_true, if_false, if_true, Int.neg_mul] <;>
    push_cast <;> omega

/-- A rank of the other sign is further away than zero. -/
theorem eq_signedUnits_or_lt_natAbs_sub {step : Nat} (positive : 0 < step) (negative : Bool)
    (rank : Int) (size : Nat) :
    rank = signedUnits negative rank.natAbs ∨
      size < (rank * step - signedUnits negative size).natAbs := by
  apply Decidable.or_iff_not_imp_left.mpr
  intro other
  cases negative with
  | false =>
      rw [signedUnits, if_neg Bool.false_ne_true] at other ⊢
      have opposite : rank = -(rank.natAbs : Int) := by omega
      have grows : 0 < rank.natAbs * step := Nat.mul_pos (by omega) positive
      rw [opposite, Int.neg_mul, ← Int.natCast_mul]
      omega
  | true =>
      rw [signedUnits, if_pos rfl] at other ⊢
      have opposite : rank = (rank.natAbs : Int) := by omega
      have grows : 0 < rank.natAbs * step := Nat.mul_pos (by omega) positive
      rw [opposite, ← Int.natCast_mul]
      omega

theorem roundSignificant_nearest_rank (positive : 0 < denominator) (fits : Fits rank.natAbs) :
    (signedUnits negative (roundSignificant 24 numerator denominator) * denominator
        - signedUnits negative numerator).natAbs ≤
      (rank * denominator - signedUnits negative numerator).natAbs := by
  rw [natAbs_signedUnits_sub]
  rcases eq_signedUnits_or_lt_natAbs_sub positive negative rank numerator with same | beyond
  · rw [same, natAbs_signedUnits_sub]
    exact roundSignificant_nearest numerator (by decide) positive fits.short
  · have zero := roundSignificant_nearest numerator (by decide) positive fits_zero.short
    omega

theorem bits_of_rank_tie (positive : 0 < denominator) (fits : Fits rank.natAbs)
    (different : rank ≠ signedUnits negative (roundSignificant 24 numerator denominator))
    (near : (rank * denominator - signedUnits negative numerator).natAbs ≤
      (signedUnits negative (roundSignificant 24 numerator denominator) * denominator
        - signedUnits negative numerator).natAbs) :
    magnitudeBits (roundSignificant 24 numerator denominator) % 2 = 0 ∧
      magnitudeBits rank.natAbs % 2 = 1 := by
  rw [natAbs_signedUnits_sub] at near
  rcases eq_signedUnits_or_lt_natAbs_sub positive negative rank numerator with same | beyond
  · rw [same, natAbs_signedUnits_sub] at near
    exact bits_of_tie positive fits.short (fun equal => different (equal ▸ same)) near
  · have zero := roundSignificant_nearest numerator (by decide) positive fits_zero.short
    omega

end Signs

section Nearest

variable {negative : Bool} {numerator denominator : Nat}

/-- Of the finite singles the one with the rounded magnitude and the sign is nearest. -/
theorem isNearest_iff {number : Single} {rank : Int} (positive : 0 < denominator)
    (inRange : roundSignificant 24 (numerator * unitsPerOne) denominator < unitsLimit)
    (numberAt : FiniteAt number rank) :
    IsNearest (signed negative (numerator / denominator)) number ↔
      rank = signedUnits negative
        (roundSignificant 24 (numerator * unitsPerOne) denominator) := by
  have rounded := finiteAt_finite negative _ (fits_roundSignificant inRange)
  constructor
  · rintro ⟨finite, closest, even⟩
    apply Decidable.byContradiction
    intro different
    have near := (numberAt.abs_sub_le_abs_sub positive rounded).mp (closest _ rfl)
    have notNearer := (rounded.abs_sub_le_abs_sub positive numberAt).mpr
      (roundSignificant_nearest_rank positive numberAt.fits)
    have apart := mt (rounded.toRat_inj numberAt).mp (Ne.symm different)
    -- In a tie with the rounded one the number is odd, but then it is not the one to take.
    have odd := (bits_of_rank_tie positive numberAt.fits different near).2
    have last := even _ rfl apart (le_antisymm notNearer (closest _ rfl))
    rw [numberAt.toBits_mod_two] at last
    omega
  · rintro rfl
    refine ⟨isFinite_iff.mpr ⟨_, numberAt⟩, ?_, ?_⟩
    · intro other finite
      obtain ⟨otherRank, otherAt⟩ := isFinite_iff.mp finite
      exact (numberAt.abs_sub_le_abs_sub positive otherAt).mpr
        (roundSignificant_nearest_rank positive otherAt.fits)
    · intro other finite different tie
      obtain ⟨otherRank, otherAt⟩ := isFinite_iff.mp finite
      have near := (otherAt.abs_sub_le_abs_sub positive numberAt).mp tie.le
      rw [numberAt.toBits_mod_two, natAbs_signedUnits]
      exact (bits_of_rank_tie positive otherAt.fits
        (fun same => different ((otherAt.toRat_inj numberAt).mpr same)) near).1

theorem ofRatio_isFinite_iff (positive : 0 < denominator) :
    (ofRatio negative numerator denominator).isFinite = true ↔
      (numerator / denominator : ℚ) < overflowBound := by
  rw [ratio_lt_overflowBound_iff positive, ← roundSignificant_lt_unitsLimit_iff positive, ofRatio,
    ofUnits]
  split
  next inRange => exact ⟨fun _ => inRange, fun _ => rfl⟩
  next beyond =>
      constructor
      · intro finite
        cases finite
      · intro inRange
        exact absurd inRange beyond

/-- A quotient is rounded to a finite number when it is in range, and then to the nearest one
that has its sign. -/
theorem ofRatio_eq_iff {number : Single} (positive : 0 < denominator) :
    ofRatio negative numerator denominator = number ∧ number.isFinite = true ↔
      (numerator / denominator : ℚ) < overflowBound ∧
        IsNearest (signed negative (numerator / denominator)) number ∧
        number.isNegative = negative := by
  rw [ratio_lt_overflowBound_iff positive, ← roundSignificant_lt_unitsLimit_iff positive]
  constructor
  · rintro ⟨rfl, finite⟩
    unfold ofRatio ofUnits at finite ⊢
    split at finite
    next inRange =>
        rw [dif_pos inRange]
        exact ⟨inRange, (isNearest_iff positive inRange (finiteAt_finite _ _ _)).mpr rfl, rfl⟩
    next => cases finite
  · rintro ⟨inRange, nearest, sign⟩
    refine ⟨?_, nearest.finite⟩
    obtain ⟨rank, numberAt⟩ := isFinite_iff.mp nearest.finite
    have ranked := (isNearest_iff positive inRange numberAt).mp nearest
    obtain ⟨ownSign, magnitude, fits, rfl, rfl⟩ := numberAt.exists_eq
    obtain rfl : ownSign = negative := sign
    have magnitudes := congrArg Int.natAbs ranked
    rw [natAbs_signedUnits, natAbs_signedUnits] at magnitudes
    subst magnitudes
    rw [ofRatio, ofUnits, dif_pos inRange]

theorem exists_signed_ratio (exact : ℚ) : ∃ negative numerator denominator, 0 < denominator ∧
    exact = signed negative ((numerator : Nat) / (denominator : Nat)) := by
  refine ⟨decide (exact.num < 0), exact.num.natAbs, exact.den, exact.den_pos, ?_⟩
  rw [Nat.cast_natAbs, Int.cast_abs]
  by_cases negative : exact.num < 0
  · rw [signed, if_pos (decide_eq_true negative), abs_of_neg (Int.cast_lt_zero.mpr negative),
      neg_div, Rat.neg_neg, Rat.num_div_den]
  · rw [signed, if_neg (by simpa using negative),
      abs_of_nonneg (Int.cast_nonneg (Int.not_lt.mp negative)), Rat.num_div_den]

/-- There is only one number nearest to another one. -/
theorem IsNearest.toRat_eq {exact : ℚ} {left right : Single} (leftNearest : IsNearest exact left)
    (rightNearest : IsNearest exact right) (inRange : |exact| < overflowBound) :
    left.toRat = right.toRat := by
  obtain ⟨negative, numerator, denominator, positive, rfl⟩ := exists_signed_ratio exact
  rw [abs_signed, abs_of_nonneg (by positivity), ratio_lt_overflowBound_iff positive,
    ← roundSignificant_lt_unitsLimit_iff positive] at inRange
  obtain ⟨leftRank, leftAt⟩ := isFinite_iff.mp leftNearest.finite
  obtain ⟨rightRank, rightAt⟩ := isFinite_iff.mp rightNearest.finite
  rw [leftAt.toRat_inj rightAt, (isNearest_iff positive inRange leftAt).mp leftNearest,
    (isNearest_iff positive inRange rightAt).mp rightNearest]

theorem IsNearest.le {low high : ℚ} {left right : Single} (leftNearest : IsNearest low left)
    (rightNearest : IsNearest high right) (inRange : |low| < overflowBound)
    (ordered : low ≤ high) : left ≤ right := by
  obtain ⟨leftRank, leftAt⟩ := isFinite_iff.mp leftNearest.finite
  obtain ⟨rightRank, rightAt⟩ := isFinite_iff.mp rightNearest.finite
  rw [← leftAt.toRat_le_toRat rightAt]
  rcases ordered.eq_or_lt with rfl | less
  · exact (leftNearest.toRat_eq rightNearest inRange).le
  · have nearLow := leftNearest.closest right rightNearest.finite
    have nearHigh := rightNearest.closest left leftNearest.finite
    apply le_of_not_gt
    intro crossed
    -- Either number lies on its side of the middle between the two singles.
    have above : left.toRat + right.toRat ≤ 2 * low := by
      have reach := (le_abs_self _).trans nearLow
      rcases abs_choice (right.toRat - low) with same | same <;> rw [same] at reach <;> linarith
    have below : 2 * high ≤ left.toRat + right.toRat := by
      have reach := (neg_le_abs _).trans nearHigh
      rcases abs_choice (left.toRat - high) with same | same <;> rw [same] at reach <;> linarith
    linarith

end Nearest

end Single

end LimbAnimation
