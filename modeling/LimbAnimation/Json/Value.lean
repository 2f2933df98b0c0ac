import LimbAnimation.Single.Basic

/-!
# JSON values

A number is an integer of at most 64 bits, which keeps its sign even when it is zero,
or else the single that it is taken as.  A string whose escapes leave half of a
surrogate pair alone denotes no text; it is a value all the same, because a reader may
skip it.  How values are written as texts is left open: it is given by a layer of texts.
-/

namespace LimbAnimation

inductive Numeral where
  /-- Digits with an optional minus sign, of at most 64 bits. -/
  | integer (negative : Bool) (size : Nat)
  /-- A number with a fraction or an exponent, or with more digits: the single that it is
  taken as, if it is in range. -/
  | single (taken : Option Single)
  deriving DecidableEq

/-- The single that a numeral denotes. -/
def Numeral.single? : Numeral → Option Single
  | .integer negative size => some (.ofRatio negative size 1)
  | .single taken => taken

/-- A JSON value; the members of an object keep their order. -/
inductive Json where
  | null
  | bool (value : Bool)
  | number (numeral : Numeral)
  | text (content : Option String)
  | array (items : List Json)
  | object (members : List (Option String × Json))

namespace Json

instance : Inhabited Json := ⟨.null⟩

def string (content : String) : Json := .text (some content)

def natural (value : Nat) : Json := .number (.integer false value)

def single (value : Single) : Json := .number (.single (some value))

def ofMembers (members : List (String × Json)) : Json :=
  .object (members.map fun (name, value) => (some name, value))

end Json

/-- How values are printed, and what is read from a text; none when it is no JSON text. -/
structure JsonText where
  print : Json → String
  read? : String → Option Json

end LimbAnimation
