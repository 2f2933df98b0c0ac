import LimbAnimation.Text.Blank

/-!
# Tokens of a keyframe line

A keyframe line is cut at blanks outside parentheses.  What a token is follows
from its spelling alone.
-/

namespace LimbAnimation.ClipFile

/-- The number of open parentheses after one more character; none when a
parenthesis closes that was never opened. -/
def depthAfter? (depth : Nat) (character : Char) : Option Nat :=
  if character = '(' then some (depth + 1)
  else if character = ')' then (if depth = 0 then none else some (depth - 1))
  else some depth

/-- The token gathered so far, its last character first; none when there is
nothing. -/
def gathered (token : List Char) : List (List Char) :=
  if token.isEmpty then [] else [token.reverse]

/-- The tokens of a text, given the open parentheses and the token gathered
before it. -/
def cutFrom? : (depth : Nat) → (token text : List Char) → Option (List (List Char))
  | depth, token, [] => if depth = 0 then some (gathered token) else none
  | depth, token, character :: rest =>
    match depthAfter? depth character with
    | none => none
    | some depth =>
      if Text.isBlank character ∧ depth = 0 then
        (cutFrom? depth [] rest).map (gathered token ++ ·)
      else cutFrom? depth (character :: token) rest

/-- The tokens of a line; none when its parentheses are not balanced. -/
def cut? (line : List Char) : Option (List (List Char)) := cutFrom? 0 [] line

inductive Token where
  /-- Names of restrictions in a group. -/
  | restrictions (names : List Char)
  /-- Factors in a group. -/
  | scale (factors : List Char)
  /-- A number of degrees. -/
  | rotation (number : List Char)
  /-- A number of pixels. -/
  | offset (number : List Char)
  /-- A time in seconds. -/
  | seconds (number : List Char)
  /-- A time in frames. -/
  | frames
  /-- A word, such as the name of a hand shape. -/
  | word
  /-- Anything else. -/
  | other

/-- The inside of a token of the form `name(inside)`. -/
def groupInside? (name : String) (token : List Char) : Option (List Char) := do
  let rest ← Text.dropPrefix? name.toList token
  let inside ← Text.dropPrefix? ['('] rest
  Text.dropSuffix? [')'] inside

def beginsNumber (text : List Char) : Bool :=
  match text with
  | first :: _ => first.isDigit || first == '-' || first == '.'
  | [] => false

/-- The number of a token that begins like one and ends in `unit`. -/
def measured? (unit : String) (token : List Char) : Option (List Char) :=
  (Text.dropSuffix? unit.toList token).filter beginsNumber

/-- Digits, with an optional minus sign. -/
def isFrameNumber (token : List Char) : Bool :=
  let digits := (Text.dropPrefix? ['-'] token).getD token
  !digits.isEmpty && digits.all Char.isDigit

/-- Letters, digits and underscores. -/
def isWord (token : List Char) : Bool :=
  token.all fun character => character.isAlphanum || character == '_'

/-- What a token is, by the first form that it has. -/
def Token.ofSpelling (token : List Char) : Token :=
  if let some names := groupInside? "constraints" token then .restrictions names
  else if let some factors := groupInside? "scale" token then .scale factors
  else if let some number := measured? "deg" token then .rotation number
  else if let some number := measured? "px" token then .offset number
  else if let some number := measured? "s" token then .seconds number
  else if isFrameNumber token then .frames
  else if isWord token then .word
  else .other

end LimbAnimation.ClipFile
