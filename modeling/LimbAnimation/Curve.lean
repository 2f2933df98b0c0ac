import LimbAnimation.Vec

/-!
# Curves

A curve is a list of keys in the order in which they were added.  Its value at a
position comes from the first pair of neighbouring keys around that position;
where no pair lies around it, the first or the last key is held.
-/

namespace LimbAnimation

/-- A value at a position; positions usually lie in the unit interval. -/
structure Key (α : Type) where
  value : α
  position : Single
  deriving DecidableEq

structure Curve (α : Type) where
  keys : List (Key α)
  deriving DecidableEq

namespace Curve

variable {α : Type}

def empty : Curve α := ⟨[]⟩

def size (curve : Curve α) : Nat := curve.keys.length

def add (curve : Curve α) (key : Key α) : Curve α := ⟨curve.keys ++ [key]⟩

def first? (curve : Curve α) : Option α := curve.keys.head?.map Key.value

def last? (curve : Curve α) : Option α := curve.keys.getLast?.map Key.value

/-- Segments of at most this length jump to their end. -/
def shortestSegment : Single := .ofRatio false 1 1000000

/-- Whether a position lies between two keys or on one of them. -/
def Brackets (before after : Key α) (position : Single) : Prop :=
  before.position ≤ position ∧ position ≤ after.position

instance (before after : Key α) (position : Single) :
    Decidable (Brackets before after position) :=
  inferInstanceAs (Decidable (_ ∧ _))

def within [Blendable α] (before after : Key α) (position : Single) : α :=
  let span := after.position - before.position
  if span ≤ shortestSegment ∨ position.equals after.position then after.value
  else if position.equals before.position then before.value
  else Blendable.blend before.value after.value ((position - before.position) / span)

/-- The value from the first pair of neighbours around a position. -/
def scan? [Blendable α] (position : Single) : List (Key α) → Option α
  | before :: after :: rest =>
    if Brackets before after position then some (within before after position)
    else scan? position (after :: rest)
  | _ => none

/-- The position that a query asks for: a NaN asks for the start, and queries
outside the unit interval for its ends. -/
def queried (query : Single) : Single := if query.isNaN then 0 else query.clampUnit

/-- The value of a curve; none without keys. -/
def valueAt? [Blendable α] (curve : Curve α) (query : Single) : Option α :=
  let position := queried query
  match curve.keys with
  | [] => none
  | [only] => some only.value
  | first :: rest =>
    (scan? position (first :: rest)).or
      (if position ≤ first.position then some first.value else curve.last?)

end Curve

end LimbAnimation
