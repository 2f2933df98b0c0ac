import LimbAnimation.Clip.Basic

/-!
# Lines

What a line of a clip file is, judged by its text without surrounding blanks.
-/

namespace LimbAnimation.ClipFile

inductive Directive where
  | fps
  | speed
  | scale
  deriving DecidableEq

inductive Switch where
  | smooth
  | relative
  deriving DecidableEq

inductive Header where
  | body
  | head
  | hand
  deriving DecidableEq

inductive Line where
  | directive (directive : Directive) (payload : List Char)
  | switch (switch : Switch)
  | header (header : Header)
  | aim
  | keyframe (text : List Char)

def Directive.word : Directive → String
  | fps => "fps"
  | speed => "speed"
  | scale => "scale"

def Switch.word : Switch → String
  | smooth => "smooth"
  | relative => "relative"

def Header.word : Header → String
  | body => "BODY"
  | head => "HEAD"
  | hand => "HAND"

def Directive.ofWord? (word : List Char) : Option Directive :=
  [fps, speed, scale].find? fun directive => directive.word.toList = word

/-- A line that one word fills, or a keyframe. -/
def Line.ofWord (text : List Char) : Line :=
  if let some found := [Header.body, .head, .hand].find? (·.word.toList = text) then
    .header found
  else if let some found := [Switch.smooth, .relative].find? (·.word.toList = text) then
    .switch found
  else if text = "aim".toList then .aim
  else .keyframe text

/-- What a line is: a directive is known by its first word and takes its second
one as payload; any other keyword fills the line. -/
def Line.ofText (text : List Char) : Line :=
  let words := Text.words text
  match words.head?.bind Directive.ofWord? with
  | some found => .directive found (words.tail.head?.getD [])
  | none => .ofWord text

def byteOrderMark : Char := '\uFEFF'

/-- The text of a line without surrounding blanks and, in the first line,
without byte order marks before it. -/
def lineText (isFirst : Bool) (raw : List Char) : List Char :=
  let text := Text.trim raw
  if isFirst then Text.trim (text.dropWhile (· == byteOrderMark)) else text

def isSkipped (text : List Char) : Bool :=
  match text with
  | [] => true
  | first :: _ => first == '#'

end LimbAnimation.ClipFile
