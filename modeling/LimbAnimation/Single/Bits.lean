import LimbAnimation.Single.Basic

/-!
# Bit patterns of singles

A single is stored as a sign bit, eight exponent bits and 23 fraction bits.
`totalKey` numbers the patterns in the total order: negative NaNs first,
positive NaNs last, and the negative zero directly before the positive one.
-/

namespace LimbAnimation.Single

/-- The pattern without its sign bit.  A magnitude of at least `2 ^ 23` units
is its leading bit, kept in the exponent, and 23 further bits. -/
def magnitudeBits (magnitude : Nat) : Nat :=
  let exponent := magnitude.log2 - 23
  exponent * 2 ^ (23 : Nat) + magnitude / 2 ^ exponent

def unsignedBits : Single → Nat
  | .nan _ payload _ => 255 * 2 ^ (23 : Nat) + payload
  | .infinite _ => 255 * 2 ^ (23 : Nat)
  | .finite _ magnitude _ => magnitudeBits magnitude

/-- The 32 bits of a single. -/
def toBits (value : Single) : Nat :=
  (if value.isNegative then 2 ^ (31 : Nat) else 0) + value.unsignedBits

private theorem fits_fraction {fraction : Nat} (small : fraction < 2 ^ (23 : Nat)) :
    Fits fraction := by
  refine ⟨Nat.lt_trans small (by decide), fraction, 0, Nat.lt_trans small (by decide), by simp⟩

private theorem fits_normal {fraction exponent : Nat} (small : fraction < 2 ^ (23 : Nat))
    (bounded : exponent < 254) : Fits ((2 ^ (23 : Nat) + fraction) * 2 ^ exponent) := by
  have digits : 2 ^ (23 : Nat) + fraction < 2 ^ (24 : Nat) := by omega
  refine Fits.of_shape digits ?_
  calc (2 ^ (23 : Nat) + fraction) * 2 ^ exponent
      < 2 ^ (24 : Nat) * 2 ^ exponent := Nat.mul_lt_mul_of_pos_right digits (Nat.two_pow_pos _)
    _ ≤ 2 ^ (24 : Nat) * 2 ^ (253 : Nat) :=
      Nat.mul_le_mul_left _ (Nat.pow_le_pow_right (by decide) (by omega))
    _ = unitsLimit := unitsLimit_eq.symm

/-- The single with the given 32 bits; higher bits are ignored. -/
def ofBits (bits : Nat) : Single :=
  let negative := bits.testBit 31
  let exponent := bits / 2 ^ (23 : Nat) % 256
  let fraction := bits % 2 ^ (23 : Nat)
  have small : fraction < 2 ^ (23 : Nat) := Nat.mod_lt _ (by decide)
  if subnormal : exponent = 0 then .finite negative fraction (fits_fraction small)
  else if special : exponent = 255 then
    if nonzero : 0 < fraction then .nan negative fraction ⟨nonzero, small⟩
    else .infinite negative
  else
    .finite negative ((2 ^ (23 : Nat) + fraction) * 2 ^ (exponent - 1))
      (fits_normal small (by
        have := Nat.mod_lt (bits / 2 ^ (23 : Nat)) (by decide : 256 > 0)
        omega))

/-- The place of a single in the total order of bit patterns. -/
def totalKey (value : Single) : Int :=
  if value.isNegative then -value.unsignedBits - 1 else value.unsignedBits

end LimbAnimation.Single
