import LimbAnimation.Single.Decimal
import LimbAnimation.Text.Blank

/-!
# Numerals

Numbers as they are written: natural numbers in a base with an upper bound,
integers with an optional minus sign, and plain decimals.
-/

namespace LimbAnimation.Text

/-- The value of a digit, up to base sixteen. -/
def digitValue? (character : Char) : Option Nat :=
  if '0' ≤ character ∧ character ≤ '9' then some (character.toNat - '0'.toNat)
  else if 'a' ≤ character ∧ character ≤ 'f' then some (character.toNat - 'a'.toNat + 10)
  else if 'A' ≤ character ∧ character ≤ 'F' then some (character.toNat - 'A'.toNat + 10)
  else none

def digitIn? (base : Nat) (character : Char) : Option Nat :=
  (digitValue? character).filter (· < base)

/-- The number that a list of digits denotes after those already read. -/
def readDigits? (base : Nat) : (value : Nat) → List Char → Option Nat
  | value, [] => some value
  | value, character :: rest => do
    let digit ← digitIn? base character
    readDigits? base (value * base + digit) rest

/-- The number that a list of at least one digit denotes. -/
def readNat? (base : Nat) (text : List Char) : Option Nat :=
  if text.isEmpty then none else readDigits? base 0 text

/-- A number below `limit`, with at most one plus sign in front. -/
def readBounded? (base limit : Nat) (text : List Char) : Option Nat :=
  (readNat? base ((dropPrefix? ['+'] text).getD text)).filter (· < limit)

/-- Whether a minus sign leads, and the rest. -/
def splitSign (text : List Char) : Bool × List Char :=
  match text with
  | '-' :: rest => (true, rest)
  | _ => (false, text)

/-- An integer: digits with an optional minus sign. -/
def readInt? (text : List Char) : Option Int :=
  let (negative, digits) := splitSign text
  (readNat? 10 digits).map fun size => if negative then -(size : Int) else size

/-- A plain decimal: an optional minus sign and digits, at least one, around at
most one point. -/
def readDecimal? (text : List Char) : Option Decimal :=
  let (negative, body) := splitSign text
  match pieces (· == '.') body with
  | [whole] => (readNat? 10 whole).map fun value => ⟨negative, value, 0⟩
  | [whole, fraction] =>
    (readNat? 10 (whole ++ fraction)).map fun value => ⟨negative, value, -(fraction.length : Int)⟩
  | _ => none

/-- The single nearest to a plain decimal; none when that is no finite number. -/
def readSingle? (text : List Char) : Option Single :=
  ((readDecimal? text).map Decimal.nearest).filter Single.isFinite

end LimbAnimation.Text
