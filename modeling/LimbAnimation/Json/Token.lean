import LimbAnimation.Json.Value
import LimbAnimation.Text.Numeral

/-!
# JSON tokens

A text is cut into marks, strings and bare words by a machine that reads one
character at a time; a bare word has to be a literal or a number.
-/

namespace LimbAnimation

/-- A decimal is taken as the single that it is read as through a double. -/
def Numeral.ofDecimal (decimal : Decimal) : Numeral := .single decimal.throughDouble?

/-- Digits stand for an integer unless it is below `-2 ^ 63`. -/
def Numeral.ofDigits (negative : Bool) (size : Nat) : Numeral :=
  if negative = false ∨ size ≤ 2 ^ (63 : Nat) then .integer negative size
  else .ofDecimal ⟨negative, size, 0⟩

namespace Json

/-- Digits are gathered as long as their size stays below this bound. -/
def sizeLimit : Nat := 2 ^ (64 : Nat)

/-- The parts of a JSON text; `scalar` is a literal or a number. -/
inductive Token where
  | openArray
  | closeArray
  | openObject
  | closeObject
  | comma
  | colon
  | text (content : Option String)
  | scalar (value : Json)

inductive StringPart where
  | character (value : Char)
  | codeUnit (value : Nat)

/-- Where the machine stands; what it has gathered comes last part first. -/
inductive Lexer.Mode where
  /-- Between two tokens. -/
  | between
  /-- Inside a bare word. -/
  | bare (spelling : List Char)
  /-- Inside a string. -/
  | quoted (parts : List StringPart)
  /-- After a backslash. -/
  | escaped (parts : List StringPart)
  /-- Inside the four digits of a code unit. -/
  | digits (parts : List StringPart) (missing value : Nat)

/-- The machine and the tokens found so far, the last one first. -/
structure Lexer where
  mode : Lexer.Mode
  found : List Token

/-- The four characters that may stand around tokens. -/
def isSpace (character : Char) : Bool :=
  character == ' ' || character == '\t' || character == '\n' || character == '\r'

def mark? : Char → Option Token
  | '[' => some .openArray
  | ']' => some .closeArray
  | '{' => some .openObject
  | '}' => some .closeObject
  | ',' => some .comma
  | ':' => some .colon
  | _ => none

def isLeading (codeUnit : Nat) : Bool := 0xD800 ≤ codeUnit && codeUnit < 0xDC00

def isTrailing (codeUnit : Nat) : Bool := 0xDC00 ≤ codeUnit && codeUnit < 0xE000

/-- The character that a surrogate pair stands for. -/
def pairCharacter (leading trailing : Nat) : Char :=
  Char.ofNat (0x10000 + (leading - 0xD800) * 0x400 + (trailing - 0xDC00))

/-- The text of a string from its parts, the last one first; `awaited` is the
second unit of a pair whose first unit has to come next.  None when a unit of a
pair stands alone. -/
def joinParts : (awaited : Option Nat) → (joined : List Char) → List StringPart →
    Option (List Char)
  | none, joined, [] => some joined
  | none, joined, .character value :: parts => joinParts none (value :: joined) parts
  | none, joined, .codeUnit value :: parts =>
    if isTrailing value then joinParts (some value) joined parts
    else if isLeading value then none
    else joinParts none (Char.ofNat value :: joined) parts
  | some trailing, joined, .codeUnit value :: parts =>
    if isLeading value then joinParts none (pairCharacter value trailing :: joined) parts
    else none
  | some _, _, _ => none

/-- The digits in front, at least one, and what follows them. -/
def spanDigits? (text : List Char) : Option (List Char × List Char) :=
  let digits := text.takeWhile Char.isDigit
  if digits.isEmpty then none else some (digits, text.dropWhile Char.isDigit)

/-- An optional fraction in front, and what follows it. -/
def spanFraction? : List Char → Option (List Char × List Char)
  | '.' :: rest => spanDigits? rest
  | rest => some ([], rest)

/-- The digits of an exponent; nothing may follow them. -/
def exponentDigits? (text : List Char) : Option Nat :=
  if text.all Char.isDigit then Text.readNat? 10 text else none

def exponent? : List Char → Option Int
  | 'e' :: rest | 'E' :: rest =>
    match rest with
    | '-' :: digits => (exponentDigits? digits).map fun (size : Nat) => -(size : Int)
    | '+' :: digits => (exponentDigits? digits).map fun (size : Nat) => (size : Int)
    | digits => (exponentDigits? digits).map fun (size : Nat) => (size : Int)
  | _ => none

/-- Appends digits to a size as long as it stays below the bound; returns the
digits that are left. -/
def gatherDigits (size : Nat) : List Char → Nat × List Char
  | [] => (size, [])
  | character :: rest =>
    match (Text.digitIn? 10 character).filter (size * 10 + · < sizeLimit) with
    | some digit => gatherDigits (size * 10 + digit) rest
    | none => (size, character :: rest)

/-- A number: an integer without leading zeros, then an optional fraction, then
an optional exponent.  A digit left out before the point raises the exponent, one
behind it has no effect. -/
def numeral? (spelling : List Char) : Option Numeral := do
  let (negative, body) := Text.splitSign spelling
  let (whole, afterWhole) ← spanDigits? body
  if whole.head? = some '0' ∧ whole.length ≠ 1 then none
  else
    let (fraction, afterFraction) ← spanFraction? afterWhole
    let (leading, dropped) := gatherDigits 0 whole
    let (coefficient, ignored) := gatherDigits leading fraction
    let places : Int := dropped.length + ignored.length - fraction.length
    if afterFraction.isEmpty then
      if fraction.isEmpty ∧ dropped.isEmpty then some (.ofDigits negative coefficient)
      else some (.ofDecimal ⟨negative, coefficient, places⟩)
    else
      let exponent ← exponent? afterFraction
      some (.ofDecimal ⟨negative, coefficient, exponent + places⟩)

def scalar? (spelling : List Char) : Option Json :=
  if spelling = "null".toList then some .null
  else if spelling = "true".toList then some (.bool true)
  else if spelling = "false".toList then some (.bool false)
  else (numeral? spelling).map .number

namespace Lexer

def start : Lexer := ⟨.between, []⟩

/-- Starts a token, or stays between tokens at a space. -/
def begin (found : List Token) (character : Char) : Lexer :=
  if isSpace character then ⟨.between, found⟩
  else if character = '"' then ⟨.quoted [], found⟩
  else match mark? character with
    | some mark => ⟨.between, mark :: found⟩
    | none => ⟨.bare [character], found⟩

def endsWord (character : Char) : Bool :=
  isSpace character || character == '"' || (mark? character).isSome

/-- The part that a character after a backslash stands for. -/
def escape? : Char → Option Char
  | '"' => some '"'
  | '\\' => some '\\'
  | '/' => some '/'
  | 'b' => some '\x08'
  | 'f' => some '\x0c'
  | 'n' => some '\n'
  | 'r' => some '\r'
  | 't' => some '\t'
  | _ => none

/-- Reads one character; none when no JSON text goes on that way. -/
def step (lexer : Lexer) (character : Char) : Option Lexer :=
  match lexer.mode with
  | .between => some (begin lexer.found character)
  | .bare spelling =>
    if endsWord character then
      (scalar? spelling.reverse).map fun value => begin (.scalar value :: lexer.found) character
    else some ⟨.bare (character :: spelling), lexer.found⟩
  | .quoted parts =>
    if character = '"' then
      some ⟨.between, .text ((joinParts none [] parts).map String.ofList) :: lexer.found⟩
    else if character = '\\' then some ⟨.escaped parts, lexer.found⟩
    else if character.toNat < 0x20 then none
    else some ⟨.quoted (.character character :: parts), lexer.found⟩
  | .escaped parts =>
    if character = 'u' then some ⟨.digits parts 3 0, lexer.found⟩
    else (escape? character).map fun meant => ⟨.quoted (.character meant :: parts), lexer.found⟩
  | .digits parts missing value =>
    (Text.digitIn? 16 character).map fun digit =>
      match missing with
      | 0 => ⟨.quoted (.codeUnit (value * 16 + digit) :: parts), lexer.found⟩
      | missing + 1 => ⟨.digits parts missing (value * 16 + digit), lexer.found⟩

def finish? (lexer : Lexer) : Option (List Token) :=
  match lexer.mode with
  | .between => some lexer.found.reverse
  | .bare spelling =>
    (scalar? spelling.reverse).map fun value => (.scalar value :: lexer.found).reverse
  | _ => none

end Lexer

def tokens? (text : List Char) : Option (List Token) :=
  (text.foldlM Lexer.step Lexer.start).bind Lexer.finish?

end Json

end LimbAnimation
