import LimbAnimation.Single.Text

/-!
# Faults of clip files

Why a line of a clip file cannot be read, with the wording of each cause.
-/

namespace LimbAnimation.ClipFile

inductive Fault where
  | missingVersion
  | notText
  | readFailed (reason : String)
  | invalidFps (value : String)
  | invalidScale (value : String)
  | directiveInsideBlock (directive : String)
  | directiveOutsideBlock (directive : String)
  | duplicateBlock (block : String)
  | keyframeOutsideBlock
  | unbalancedParentheses (line : String)
  | missingTime
  | duplicateTime
  | negativeTime (time : Single)
  | offsetCount (count : Nat)
  | duplicateRotation
  | duplicateToken (what : String)
  | invalidNumber (token : String)
  | unknownRestriction (name : String)
  | invalidScaleKey (token : String)
  | shapeOutsideHand (name : String)
  | unknownToken (token : String)
  deriving DecidableEq

def Fault.message : Fault → String
  | missingVersion => "file is empty; expected a version line"
  | notText => "line is not valid UTF-8"
  | readFailed reason => "read failed: " ++ reason
  | invalidFps value => "invalid fps value '" ++ value ++ "'"
  | invalidScale value => "invalid scale value '" ++ value ++ "'"
  | directiveInsideBlock directive => "'" ++ directive ++ "' is not allowed inside a track block"
  | directiveOutsideBlock directive =>
    "'" ++ directive ++ "' is only allowed inside a track block"
  | duplicateBlock block => "duplicate " ++ block ++ " block"
  | keyframeOutsideBlock => "keyframe outside of a track block"
  | unbalancedParentheses line => "unbalanced parentheses in '" ++ line ++ "'"
  | missingTime => "keyframe has no time (expected '<seconds>s' or a frame number)"
  | duplicateTime => "keyframe has more than one time"
  | negativeTime time => "negative keyframe time " ++ time.plain
  | offsetCount count => "expected 0 or 2 px values, found " ++ toString count
  | duplicateRotation => "keyframe has more than one rotation"
  | duplicateToken what => "keyframe has more than one " ++ what
  | invalidNumber token => "invalid number '" ++ token ++ "'"
  | unknownRestriction name => "unknown constraint '" ++ name ++ "'"
  | invalidScaleKey token =>
    "scale(...) needs two comma separated numbers, got '" ++ token ++ "'"
  | shapeOutsideHand name => "hand look '" ++ name ++ "' used outside a HAND block"
  | unknownToken token => "unrecognised token '" ++ token ++ "'"

/-- The first fault of a file and its line, counted from one. -/
structure FaultyLine where
  line : Nat
  fault : Fault
  deriving DecidableEq

def FaultyLine.message (faulty : FaultyLine) : String :=
  "line " ++ toString faulty.line ++ ": " ++ faulty.fault.message

end LimbAnimation.ClipFile
