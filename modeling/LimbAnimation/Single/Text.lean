import LimbAnimation.Single.Decimal

/-!
# Texts of singles

Three ways to write a single: `plain`, the shortest digits that read back,
without an exponent; `fixed`, a given number of places; and `scientific`, which
keeps a place after the point and turns to an exponent for very large and very
small numbers.
-/

namespace LimbAnimation

namespace Decimal

def signText (negative : Bool) : String := if negative then "-" else ""

/-- The digits of a coefficient with a point before the last `places`. -/
def placed (coefficient places : Nat) : String := String.ofList (pointed coefficient places)

/-- All digits of a decimal, without an exponent. -/
def positional (decimal : Decimal) : String :=
  signText decimal.negative ++
    placed (decimal.coefficient * 10 ^ decimal.exponent.toNat) (-decimal.exponent).toNat

def exponential (decimal : Decimal) : String :=
  let digits := Nat.toDigits 10 decimal.coefficient
  let exponent := decimal.exponent + (digits.length - 1 : Nat)
  signText decimal.negative ++ placed decimal.coefficient (digits.length - 1) ++
    "e" ++ toString exponent

end Decimal

namespace Single

/-- The fewest digits whose nearest single is the given one. -/
def shortest (negative : Bool) (magnitude : Nat) : Decimal :=
  (shortestDecimal?
    (fun decimal => (decimal.nearest.rank? == some (signedUnits negative magnitude)))
    negative magnitude).getD (exactDecimal negative magnitude)

def infinityText (negative : Bool) : String := Decimal.signText negative ++ "inf"

/-- The shortest digits that read back, never with an exponent. -/
def plain : Single → String
  | .nan .. => "NaN"
  | .infinite negative => infinityText negative
  | .finite negative magnitude _ => (shortest negative magnitude).positional

/-- A number with exactly `places` digits after the point; an exact half goes to
the even neighbour. -/
def fixed (places : Nat) : Single → String
  | .nan .. => "NaN"
  | .infinite negative => infinityText negative
  | .finite negative magnitude _ =>
    Decimal.signText negative ++
      Decimal.placed (roundHalfEven (magnitude * 10 ^ places) unitsPerOne) places

/-- The shortest digits that read back with at least one place, and with an
exponent from `10 ^ 16` on and below `10 ^ (-4)`. -/
def scientific : Single → String
  | .nan .. => "NaN"
  | .infinite negative => infinityText negative
  | .finite negative magnitude fits =>
    let size : Single := .finite false magnitude fits
    let digits := shortest negative magnitude
    if magnitude ≠ 0 ∧
        (size < ofRatio false 1 (10 ^ (4 : Nat)) ∨ ofNat (10 ^ (16 : Nat)) ≤ size) then
      digits.exponential
    else if digits.exponent < 0 then digits.positional
    else digits.positional ++ ".0"

end Single

end LimbAnimation
