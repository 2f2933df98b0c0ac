import LimbAnimation.Single.Basic

/-!
# Sine and cosine

Angles are taken in degrees.  They are turned into radians by one rounded
product; sine and cosine of the result are computed with far more digits than a
single has and then rounded once.  Sine is odd and cosine even, because only
the magnitude of an angle enters the computation.
-/

namespace LimbAnimation.Single

def workPlaces : Nat := 640

/-- Places carried beyond `workPlaces` while the circle constant is summed. -/
def guardPlaces : Nat := 32

/-- The sum `x - x ^ 3 / 3 + x ^ 5 / 5 - ...` at `x = 1 / base`, as a multiple
of the last carried place, from the given power of `x` on. -/
def arctanSum (base : Nat) : (terms index power : Nat) → Int
  | 0, _, _ => 0
  | terms + 1, index, power =>
    (power / (2 * index + 1) : Nat) - arctanSum base terms (index + 1) (power / (base * base))

/-- The arc tangent of `1 / base`, as a multiple of the last carried place. -/
def arctanInverse (base : Nat) : Int :=
  arctanSum base (workPlaces / 2) 0 (2 ^ (workPlaces + guardPlaces) / base)

/-- A right angle: half of `16 arctan (1 / 5) - 4 arctan (1 / 239)`. -/
def rightAngle : Nat :=
  (8 * arctanInverse 5 - 2 * arctanInverse 239).toNat / 2 ^ guardPlaces

/-- The series `term - term * x² / ((n + 1) (n + 2)) + ...` in multiples of the
last work place; `square` is `x²`. -/
def alternatingSeries (square : Nat) : (terms divisor term : Nat) → Int
  | 0, _, _ => 0
  | terms + 1, divisor, term =>
    (term : Int) - alternatingSeries square terms (divisor + 2)
      (term * square / 2 ^ workPlaces / ((divisor + 1) * (divisor + 2)))

/-- Terms of the series that can matter at the carried places. -/
def seriesTerms : Nat := 80

/-- The sine of an angle of at most half a right angle. -/
def sineSeries (angle : Nat) : Int :=
  alternatingSeries (angle * angle / 2 ^ workPlaces) seriesTerms 1 angle

/-- The cosine of an angle of at most half a right angle. -/
def cosineSeries (angle : Nat) : Int :=
  alternatingSeries (angle * angle / 2 ^ workPlaces) seriesTerms 0 (2 ^ workPlaces)

/-- Cosine and sine of an angle, in multiples of the last work place.  The angle
is split into whole right angles, counted to the nearest, and a remainder of at
most half of one. -/
def circlePoint (angle : Nat) : Int × Int :=
  let turns := (angle + rightAngle / 2) / rightAngle
  let remainder : Int := angle - (turns * rightAngle : Nat)
  let cosine := cosineSeries remainder.natAbs
  let sine := if remainder < 0 then -sineSeries remainder.natAbs
    else sineSeries remainder.natAbs
  match turns % 4 with
  | 0 => (cosine, sine)
  | 1 => (-sine, cosine)
  | 2 => (-cosine, -sine)
  | _ => (sine, -cosine)

/-- The single nearest to a multiple of the last work place. -/
def ofWork (value : Int) : Single :=
  ofRatio (decide (value < 0)) value.natAbs (2 ^ workPlaces)

/-- A magnitude in multiples of the last work place. -/
def workOfUnits (magnitude : Nat) : Nat := magnitude * 2 ^ workPlaces / unitsPerOne

def sin : Single → Single
  | .finite negative magnitude fits =>
    if magnitude = 0 then .finite negative magnitude fits
    else
      let size := ofWork (circlePoint (workOfUnits magnitude)).2
      if negative then -size else size
  | _ => quietNaN

def cos : Single → Single
  | .finite _ magnitude _ => ofWork (circlePoint (workOfUnits magnitude)).1
  | _ => quietNaN

/-- The single nearest to the number of radians in a degree. -/
def radiansPerDegree : Single := ofRatio false 9370165 (2 ^ (29 : Nat))

/-- An angle in degrees, in radians. -/
def toRadians (degrees : Single) : Single := degrees * radiansPerDegree

end LimbAnimation.Single
