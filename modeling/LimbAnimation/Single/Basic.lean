import LimbAnimation.Rounding

/-!
# Single precision numbers

A finite single is a sign and a magnitude counted in units of `2 ^ (-149)`, the
smallest positive single; the magnitude has at most 24 significant binary
digits and stays below `2 ^ 128`.  Every operation computes the exact result
and rounds it once, to nearest with ties to even.

Comparisons go through `rank?`, the place of a number on the extended line in
the same units, which a NaN does not have.
-/

namespace LimbAnimation

/-- The unit of magnitudes is `1 / unitsPerOne`. -/
def Single.unitsPerOne : Nat := 2 ^ (149 : Nat)

/-- Finite magnitudes stay below `2 ^ 128`, counted in units. -/
def Single.unitsLimit : Nat := 2 ^ (128 : Nat) * 2 ^ (149 : Nat)

/-- The magnitudes of finite singles, in units of `2 ^ (-149)`. -/
structure Single.Fits (magnitude : Nat) : Prop where
  /-- They stay below `2 ^ 128`. -/
  bounded : magnitude < Single.unitsLimit
  /-- They have at most 24 significant binary digits. -/
  short : ∃ significand exponent : Nat, significand < 2 ^ (24 : Nat) ∧
    magnitude = significand * 2 ^ exponent

/-- A binary floating point number of 32 bits. -/
inductive Single where
  /-- Not a number; the payload is a diagnostic that no operation reads. -/
  | nan (negative : Bool) (payload : Nat) (inRange : 0 < payload ∧ payload < 2 ^ (23 : Nat))
  /-- One of the two infinities. -/
  | infinite (negative : Bool)
  /-- A number of the given sign and magnitude; zero has two signs. -/
  | finite (negative : Bool) (magnitude : Nat) (fits : Single.Fits magnitude)
  deriving DecidableEq

namespace Single

theorem Fits.of_shape {significand exponent : Nat} (digits : significand < 2 ^ (24 : Nat))
    (bounded : significand * 2 ^ exponent < unitsLimit) : Fits (significand * 2 ^ exponent) :=
  ⟨bounded, significand, exponent, digits, rfl⟩

theorem unitsLimit_eq : unitsLimit = 2 ^ (24 : Nat) * 2 ^ (253 : Nat) := by decide

theorem fits_zero : Fits 0 := ⟨by decide, 0, 0, by decide, rfl⟩

theorem fits_roundSignificant {numerator denominator : Nat}
    (bounded : roundSignificant 24 numerator denominator < unitsLimit) :
    Fits (roundSignificant 24 numerator denominator) :=
  ⟨bounded, roundSignificant_short 24 numerator denominator (by decide)⟩

def quietNaN : Single := .nan false (2 ^ (22 : Nat)) (by decide)

def zeroOf (negative : Bool) : Single := .finite negative 0 fits_zero

/-- The single nearest to `numerator / denominator` units; an infinity when the
nearest number with 24 digits is out of range. -/
def ofUnits (negative : Bool) (numerator denominator : Nat) : Single :=
  if bounded : roundSignificant 24 numerator denominator < unitsLimit then
    .finite negative (roundSignificant 24 numerator denominator) (fits_roundSignificant bounded)
  else .infinite negative

/-- The single nearest to the quotient `numerator / denominator`. -/
def ofRatio (negative : Bool) (numerator denominator : Nat) : Single :=
  ofUnits negative (numerator * unitsPerOne) denominator

def ofNat (value : Nat) : Single := ofRatio false value 1

def ofInt (value : Int) : Single := ofRatio (decide (value < 0)) value.natAbs 1

instance (value : Nat) : OfNat Single value := ⟨ofNat value⟩

instance : Inhabited Single := ⟨0⟩

def half : Single := ofRatio false 1 2

def isFinite : Single → Bool
  | .finite .. => true
  | _ => false

def isNaN : Single → Bool
  | .nan .. => true
  | _ => false

def isNegative : Single → Bool
  | .nan negative .. => negative
  | .infinite negative => negative
  | .finite negative .. => negative

def signedUnits (negative : Bool) (magnitude : Nat) : Int :=
  if negative then -magnitude else magnitude

/-- The place of a number on the line in units of `2 ^ (-149)`, the infinities
beyond all finite numbers; a NaN has none. -/
def rank? : Single → Option Int
  | .nan .. => none
  | .infinite negative => some (signedUnits negative unitsLimit)
  | .finite negative magnitude _ => some (signedUnits negative magnitude)

/-- Numerically smaller; false when either side is a NaN. -/
def lt (left right : Single) : Bool :=
  match left.rank?, right.rank? with
  | some leftRank, some rightRank => decide (leftRank < rightRank)
  | _, _ => false

/-- Numerically smaller or equal; false when either side is a NaN. -/
def le (left right : Single) : Bool :=
  match left.rank?, right.rank? with
  | some leftRank, some rightRank => decide (leftRank ≤ rightRank)
  | _, _ => false

instance : LT Single := ⟨fun left right => left.lt right = true⟩

instance : LE Single := ⟨fun left right => left.le right = true⟩

instance (left right : Single) : Decidable (left < right) :=
  inferInstanceAs (Decidable (left.lt right = true))

instance (left right : Single) : Decidable (left ≤ right) :=
  inferInstanceAs (Decidable (left.le right = true))

/-- Numerically equal: the two zeros are, a NaN is equal to nothing. -/
def equals (left right : Single) : Bool :=
  match left.rank?, right.rank? with
  | some leftRank, some rightRank => leftRank == rightRank
  | _, _ => false

def neg : Single → Single
  | .nan negative payload inRange => .nan (!negative) payload inRange
  | .infinite negative => .infinite (!negative)
  | .finite negative magnitude fits => .finite (!negative) magnitude fits

/-- The rounded sum; opposite numbers give the positive zero, and only two
negative zeros the negative one. -/
def add : Single → Single → Single
  | .finite negative magnitude _, .finite negative' magnitude' _ =>
    let total := signedUnits negative magnitude + signedUnits negative' magnitude'
    if total = 0 then zeroOf (negative && negative')
    else ofUnits (decide (total < 0)) total.natAbs 1
  | .infinite negative, .infinite negative' =>
    if negative = negative' then .infinite negative else quietNaN
  | .infinite negative, .finite .. => .infinite negative
  | .finite .., .infinite negative => .infinite negative
  | .nan .., _ => quietNaN
  | _, .nan .. => quietNaN

def sub (left right : Single) : Single := left.add right.neg

def mul : Single → Single → Single
  | .finite negative magnitude _, .finite negative' magnitude' _ =>
    ofUnits (negative != negative') (magnitude * magnitude') unitsPerOne
  | .infinite negative, .infinite negative' => .infinite (negative != negative')
  | .infinite negative, .finite negative' magnitude _ =>
    if magnitude = 0 then quietNaN else .infinite (negative != negative')
  | .finite negative magnitude _, .infinite negative' =>
    if magnitude = 0 then quietNaN else .infinite (negative != negative')
  | .nan .., _ => quietNaN
  | _, .nan .. => quietNaN

def div : Single → Single → Single
  | .finite negative magnitude _, .finite negative' magnitude' _ =>
    if magnitude' = 0 then
      if magnitude = 0 then quietNaN else .infinite (negative != negative')
    else ofUnits (negative != negative') (magnitude * unitsPerOne) magnitude'
  | .infinite _, .infinite _ => quietNaN
  | .infinite negative, .finite negative' .. => .infinite (negative != negative')
  | .finite negative .., .infinite negative' => zeroOf (negative != negative')
  | .nan .., _ => quietNaN
  | _, .nan .. => quietNaN

instance : Neg Single := ⟨neg⟩

instance : Add Single := ⟨add⟩

instance : Sub Single := ⟨sub⟩

instance : Mul Single := ⟨mul⟩

instance : Div Single := ⟨div⟩

/-- The larger number; a NaN gives way to the other side, and of two equal
numbers the left one is taken. -/
def larger (left right : Single) : Single :=
  if left.isNaN ∨ left < right then right else left

/-- The nearest number between `low` and `high`; a NaN stays. -/
def clamp (value low high : Single) : Single :=
  let raised := if value < low then low else value
  if high < raised then high else raised

/-- The nearest number of the unit interval; a NaN stays. -/
def clampUnit (value : Single) : Single := value.clamp 0 1

end Single

end LimbAnimation
