import LimbAnimation.Single.Basic

/-!
# Decimals and singles

A decimal is a signed coefficient times a power of ten.  It is read as the
nearest single, either at once or by a computation in doubles, and a single is
written as the shortest decimal that a given way of reading takes back to it.
The main statement is that this decimal reads back.
-/

namespace LimbAnimation

/-- The number `coefficient * 10 ^ exponent` with a sign. -/
structure Decimal where
  negative : Bool
  coefficient : Nat
  exponent : Int
  deriving DecidableEq

namespace Decimal

/-- The upper side of the quotient that a decimal denotes. -/
def numerator (decimal : Decimal) : Nat :=
  decimal.coefficient * 10 ^ decimal.exponent.toNat

/-- The lower side of the quotient that a decimal denotes. -/
def denominator (decimal : Decimal) : Nat :=
  10 ^ (-decimal.exponent).toNat

def nearest (decimal : Decimal) : Single :=
  .ofRatio decimal.negative decimal.numerator decimal.denominator

/-- The digits of a coefficient with a point before the last `places`, at least
one digit before it; without a point when there are no places. -/
def pointed (coefficient places : Nat) : List Char :=
  let digits := Nat.toDigits 10 coefficient
  let padded := List.replicate (places + 1 - digits.length) '0' ++ digits
  if places = 0 then padded
  else padded.take (padded.length - places) ++ '.' :: padded.drop (padded.length - places)

end Decimal

/-- A natural number rounded to the 53 significant binary digits of a double. -/
def roundDouble (value : Nat) : Nat := roundSignificant 53 value 1

/-- Doubles with a fraction are counted in units of `1 / doubleUnitsPerOne`. -/
def doubleUnitsPerOne : Nat := 2 ^ (1074 : Nat)

/-- The double nearest to a quotient, in units. -/
def roundDoubleUnits (numerator denominator : Nat) : Nat :=
  roundSignificant 53 numerator denominator

def doubleLimit : Nat := 2 ^ (1024 : Nat)

def largestPower : Nat := 308

/-- A double multiplied by a power of ten; none when the power or the product is
out of range.  Zero stays zero. -/
def timesPower? (size exponent : Nat) : Option Nat :=
  if size = 0 then some 0
  else if largestPower < exponent then none
  else (some (roundDouble (size * roundDouble (10 ^ exponent)))).filter (· < doubleLimit)

/-- A double divided by a power of ten, in units.  A power out of range is split
in two; a number below `2 ^ 64` vanishes when both halves are out of range. -/
def overPower (size places : Nat) : Nat :=
  let units := size * doubleUnitsPerOne
  if places ≤ largestPower then roundDoubleUnits units (roundDouble (10 ^ places))
  else if places ≤ 2 * largestPower then
    roundDoubleUnits (roundDoubleUnits units (roundDouble (10 ^ largestPower)))
      (roundDouble (10 ^ (places - largestPower)))
  else 0

namespace Decimal

/-- The single nearest to a decimal that is computed in doubles: the coefficient
and the power of ten are rounded to doubles, and so is their product or
quotient.  None when the double is out of range. -/
def throughDouble? (decimal : Decimal) : Option Single :=
  let size := roundDouble decimal.coefficient
  match decimal.exponent with
  | .ofNat exponent =>
    (timesPower? size exponent).map fun product => .ofRatio decimal.negative product 1
  | .negSucc places =>
    some (.ofRatio decimal.negative (overPower size (places + 1)) doubleUnitsPerOne)

end Decimal

namespace Single

/-- Of the two multiples of `10 ^ exponent` next to a magnitude, the nearer one
that satisfies `reads`; the larger one when both are equally near. -/
def onGrid? (reads : Decimal → Bool) (negative : Bool) (magnitude : Nat) (exponent : Int) :
    Option Decimal :=
  let numerator := magnitude * 10 ^ (-exponent).toNat
  let denominator := unitsPerOne * 10 ^ exponent.toNat
  let below : Decimal := ⟨negative, numerator / denominator, exponent⟩
  let above : Decimal := ⟨negative, numerator / denominator + 1, exponent⟩
  if 2 * (numerator % denominator) < denominator then [below, above].find? reads
  else [above, below].find? reads

/-- The decimal grids on which digits are sought, the coarsest first. -/
def grids : List Int := (List.range 92).map fun (index : Nat) => 38 - (index : Int)

def exactDecimal (negative : Bool) (magnitude : Nat) : Decimal :=
  ⟨negative, magnitude * 5 ^ (149 : Nat), -149⟩

/-- About twelve digits of a magnitude: three tenths of its binary digits, for
`2 ^ 10` is close to `10 ^ 3`, and twelve places more. -/
def roundedDecimal (negative : Bool) (magnitude : Nat) : Decimal :=
  let exponent : Int := ((magnitude.log2 : Int) - 149) * 3 / 10 - 12
  let coefficient := roundHalfEven (magnitude * 10 ^ (-exponent).toNat)
    (unitsPerOne * 10 ^ exponent.toNat)
  ⟨negative, coefficient, exponent⟩

/-- The decimal with the fewest digits that satisfies `reads`. -/
def shortestDecimal? (reads : Decimal → Bool) (negative : Bool) (magnitude : Nat) :
    Option Decimal :=
  if magnitude = 0 then (some ⟨negative, 0, 0⟩).filter reads
  else grids.findSome? (onGrid? reads negative magnitude)

theorem onGrid?_reads {reads : Decimal → Bool} {negative : Bool} {magnitude : Nat}
    {exponent : Int} {found : Decimal}
    (hit : onGrid? reads negative magnitude exponent = some found) : reads found = true := by
  unfold onGrid? at hit
  dsimp only at hit
  split at hit
  · exact List.find?_some hit
  · exact List.find?_some hit

/-- A shortest decimal satisfies `reads`. -/
theorem shortestDecimal?_reads {reads : Decimal → Bool} {negative : Bool} {magnitude : Nat}
    {found : Decimal} (hit : shortestDecimal? reads negative magnitude = some found) :
    reads found = true := by
  unfold shortestDecimal? at hit
  split at hit
  · exact (Option.filter_eq_some_iff.mp hit).2
  · obtain ⟨exponent, _, onGrid⟩ := List.exists_of_findSome?_eq_some hit
    exact onGrid?_reads onGrid

end Single

end LimbAnimation
