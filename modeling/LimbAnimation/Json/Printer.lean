import LimbAnimation.Json.Reader

/-!
# Printing JSON

Values are printed without spaces.  A single is printed with the fewest digits that the
reader takes back to it, always with a place or an exponent, so that it never looks like
an integer.  The printer and the reader are the plain layer of texts.
-/

namespace LimbAnimation

namespace Json

def signChars (negative : Bool) : List Char := if negative then ['-'] else []

def exponentChars (exponent : Int) : List Char :=
  'e' :: signChars (decide (exponent < 0)) ++ Nat.toDigits 10 exponent.natAbs

/-- A decimal with a place after the point, or with an exponent behind its first digit
when more than thirteen digits would stand before the point or more than five zeros
right behind it. -/
def decimalChars (decimal : Decimal) : List Char :=
  let digits := (Nat.toDigits 10 decimal.coefficient).length
  let whole : Int := decimal.exponent + digits
  signChars decimal.negative ++
    if 0 ≤ decimal.exponent ∧ whole ≤ 13 then
      Decimal.pointed (decimal.coefficient * 10 ^ (decimal.exponent.toNat + 1)) 1
    else if decimal.exponent < 0 ∧ -6 < whole ∧ whole ≤ 13 then
      Decimal.pointed decimal.coefficient (-decimal.exponent).toNat
    else Decimal.pointed decimal.coefficient (digits - 1) ++ exponentChars (whole - 1)

/-- Whether a decimal, as it is printed, is read as a single. -/
def readsAs (value : Single) (decimal : Decimal) : Bool :=
  numeral? (decimalChars decimal) == some (.single (some value))

/-- The decimal that a finite single is printed as: the shortest that is read as the same
single. -/
def decimalOf (value : Single) (negative : Bool) (magnitude : Nat) : Decimal :=
  (Single.shortestDecimal? (readsAs value) negative magnitude).getD
    (Single.roundedDecimal negative magnitude)

/-- A number; a single that is not finite is printed as a null. -/
def numeralChars : Numeral → List Char
  | .integer negative size => signChars negative ++ Nat.toDigits 10 size
  | .single (some (.finite negative magnitude fits)) =>
    decimalChars (decimalOf (.finite negative magnitude fits) negative magnitude)
  | .single _ => "null".toList

def escapeChars (character : Char) : List Char :=
  if character = '"' then ['\\', '"']
  else if character = '\\' then ['\\', '\\']
  else if character = '\n' then ['\\', 'n']
  else if character = '\r' then ['\\', 'r']
  else if character = '\t' then ['\\', 't']
  else if character = '\x08' then ['\\', 'b']
  else if character = '\x0c' then ['\\', 'f']
  else if character.toNat < 0x20 then
    ['\\', 'u', '0', '0', Nat.digitChar (character.toNat / 16),
      Nat.digitChar (character.toNat % 16)]
  else [character]

def stringChars (content : String) : List Char :=
  '"' :: content.toList.flatMap escapeChars ++ ['"']

/-- A string; one without a text is printed as a lone unit of a pair. -/
def textChars : Option String → List Char
  | some content => stringChars content
  | none => '"' :: '\\' :: "ud800".toList ++ ['"']

mutual

def chars : Json → List Char
  | .null => "null".toList
  | .bool value => (if value then "true" else "false").toList
  | .number numeral => numeralChars numeral
  | .text content => textChars content
  | .array items => '[' :: itemsChars items ++ [']']
  | .object members => '{' :: membersChars members ++ ['}']

/-- The items of an array with commas between them. -/
def itemsChars : List Json → List Char
  | [] => []
  | [item] => chars item
  | item :: items => chars item ++ ',' :: itemsChars items

/-- The members of an object with commas between them. -/
def membersChars : List (Option String × Json) → List Char
  | [] => []
  | [(name, value)] => textChars name ++ ':' :: chars value
  | (name, value) :: members => textChars name ++ ':' :: chars value ++ ',' :: membersChars members

end

def print (value : Json) : String := String.ofList value.chars

end Json

/-- Texts without spaces, read by the machine of tokens. -/
def JsonText.plain : JsonText where
  print := Json.print
  read? := Json.read?

end LimbAnimation
