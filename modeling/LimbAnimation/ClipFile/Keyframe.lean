import LimbAnimation.Clip.Basic
import LimbAnimation.ClipFile.Fault
import LimbAnimation.ClipFile.Token
import LimbAnimation.Text.Numeral

/-!
# Keyframes

A keyframe line gives a time and what the limb does at that time.  Its tokens
are entered one after the other into a draft, which refuses what has been given
before; the complete draft is the keyframe.
-/

namespace LimbAnimation.ClipFile

structure Settings where
  /-- Frames in a second. -/
  fps : Nat
  /-- How much faster than written the animation plays. -/
  speed : Single
  /-- The factor on every offset. -/
  scale : Single
  deriving DecidableEq

def Settings.standard : Settings := ⟨24, 1, 1⟩

/-- What a limb does at a time, in seconds. -/
structure Keyframe where
  time : Single
  position : Option Vec
  rotation : Option Single
  scale : Option Vec
  shape : Option HandShape
  deriving DecidableEq

structure Draft where
  time : Option Single
  offsets : List Single
  rotation : Option Single
  scale : Option Vec
  shape : Option HandShape
  restrictions : Option Restrictions
  deriving DecidableEq

namespace Draft

def blank : Draft := ⟨none, [], none, none, none, none⟩

/-- A decimal; the fault names the text that is none. -/
def decimal (text : List Char) : Except Fault Single :=
  match Text.readSingle? text with
  | some number => .ok number
  | none => .error (.invalidNumber (String.ofList text))

/-- The union of the restrictions named in a group. -/
def restrictionsOf (names : List Char) : Except Fault Restrictions :=
  (Text.words names).foldlM
    (fun set name =>
      match Restrictions.ofFileName? name with
      | some restrictions => .ok (set ∪ restrictions)
      | none => .error (.unknownRestriction (String.ofList name)))
    .empty

/-- The two factors of a scale group; empty parts between commas do not
count. -/
def factors? (inside : List Char) : Option Vec :=
  match ((Text.pieces (· == ',') inside).map Text.trim).filter (!·.isEmpty) with
  | [x, y] => do return ⟨← Text.readSingle? x, ← Text.readSingle? y⟩
  | _ => none

/-- A number of frames in the range of 64 bit integers. -/
def frameNumber? (token : List Char) : Option Int :=
  (Text.readInt? token).filter fun number => -2 ^ (63 : Nat) ≤ number ∧ number < 2 ^ (63 : Nat)

/-- The draft with a time, of which there may be one that is not negative. -/
def enterTime (draft : Draft) (time : Single) : Except Fault Draft :=
  if draft.time.isSome then .error .duplicateTime
  else if time < 0 then .error (.negativeTime time)
  else .ok { draft with time := some time }

def enter (settings : Settings) (inHand : Bool) (draft : Draft) (token : List Char) :
    Except Fault Draft :=
  let spelling := String.ofList token
  match Token.ofSpelling token with
  | .restrictions names =>
    if draft.restrictions.isSome then .error (.duplicateToken "constraints")
    else do
      let restrictions ← restrictionsOf names
      return { draft with restrictions := some restrictions }
  | .scale inside =>
    if draft.scale.isSome then .error (.duplicateToken "scale")
    else match factors? inside with
      | some scale => .ok { draft with scale := some scale }
      | none => .error (.invalidScaleKey spelling)
  | .rotation number =>
    if draft.rotation.isSome then .error .duplicateRotation
    else do
      let rotation ← decimal number
      return { draft with rotation := some rotation }
  | .offset number => do
    let offset ← decimal number
    return { draft with offsets := draft.offsets ++ [offset] }
  | .seconds number => do
    let seconds ← decimal number
    draft.enterTime (seconds / settings.speed)
  | .frames =>
    match frameNumber? token with
    | some frames =>
      draft.enterTime (Single.ofInt frames / Single.ofNat settings.fps / settings.speed)
    | none => .error (.invalidNumber spelling)
  | .word =>
    match HandShape.ofName? token with
    | some shape =>
      if !inHand then .error (.shapeOutsideHand spelling)
      else if draft.shape.isSome then .error (.duplicateToken "hand look")
      else .ok { draft with shape := some shape }
    | none => .error (.unknownToken spelling)
  | .other => .error (.unknownToken spelling)

def position (settings : Settings) : List Single → Except Fault (Option Vec)
  | [] => .ok none
  | [x, y] => .ok (some (Vec.scaledBy ⟨x, y⟩ settings.scale))
  | offsets => .error (.offsetCount offsets.length)

def keyframe (settings : Settings) (draft : Draft) : Except Fault Keyframe :=
  match draft.time with
  | none => .error .missingTime
  | some time => do
    let position ← position settings draft.offsets
    return ⟨time, position, draft.rotation, draft.scale, draft.shape⟩

def ofLine (settings : Settings) (inHand : Bool) (line : List Char) : Except Fault Draft :=
  match cut? line with
  | none => .error (.unbalancedParentheses (String.ofList line))
  | some tokens => tokens.foldlM (enter settings inHand) blank

end Draft

end LimbAnimation.ClipFile
