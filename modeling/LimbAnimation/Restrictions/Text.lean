import LimbAnimation.Restrictions.Basic
import LimbAnimation.Text.Numeral

/-!
# Restrictions as text

A set is written as flag names with bars between them; bits that no name covers
follow as a hexadecimal number.  The empty set is the empty text.
-/

namespace LimbAnimation.Restrictions

/-- The name parts of a set: each name that the set includes wholly and that
covers a bit not yet written; also the bits left over. -/
def namedParts (set : Restrictions) : (unwritten : Restrictions) → List Restriction →
    List Restriction × Restrictions
  | unwritten, [] => ([], unwritten)
  | unwritten, restriction :: rest =>
    if set.includes restriction.set ∧ unwritten.meets restriction.set then
      let (parts, leftOver) := namedParts set (unwritten.without restriction.set) rest
      (restriction :: parts, leftOver)
    else namedParts set unwritten rest

def hexText (value : Nat) : String := "0x" ++ String.ofList (Nat.toDigits 16 value)

def toText (set : Restrictions) : String :=
  let (parts, leftOver) := namedParts set set Restriction.all
  let names := parts.map Restriction.flagName
  let remainder := if leftOver = empty then [] else [hexText leftOver.bits.toNat]
  String.intercalate " | " (names ++ remainder)

def ofPart? (part : List Char) : Option Restrictions :=
  match Text.dropPrefix? "0x".toList part with
  | some digits => (Text.readBounded? 16 (2 ^ (32 : Nat)) digits).map fun bits => ⟨.ofNat 32 bits⟩
  | none =>
    (Restriction.all.find? fun restriction => restriction.flagName.toList = part).map
      Restriction.set

/-- The set that a text denotes: the union of its parts, which may stand between
blanks. -/
def ofText? (text : String) : Option Restrictions :=
  let characters := text.toList
  if (Text.trim characters).isEmpty then some empty
  else
    (Text.pieces (· == '|') characters).foldlM
      (fun set part => (ofPart? (Text.trim part)).map (set ∪ ·)) empty

end LimbAnimation.Restrictions
