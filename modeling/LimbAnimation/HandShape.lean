import LimbAnimation.Single.Basic
import LimbAnimation.Text.Blank

/-!
# Hand shapes

A hand shows one of nine shapes.  A hand track lists the positions at which the
shape changes.
-/

namespace LimbAnimation

inductive HandShape where
  | fist
  | open
  | point
  | holdPistol
  | holdRifle
  | holdStock
  | holdUnderside
  | thumbsUp
  | grip
  deriving DecidableEq

namespace HandShape

def all : List HandShape :=
  [.fist, .open, .point, .holdPistol, .holdRifle, .holdStock, .holdUnderside, .thumbsUp, .grip]

def name : HandShape → String
  | .fist => "Fist"
  | .open => "Open"
  | .point => "Point"
  | .holdPistol => "HoldPistol"
  | .holdRifle => "HoldRifle"
  | .holdStock => "HoldStock"
  | .holdUnderside => "HoldUnderside"
  | .thumbsUp => "ThumbsUp"
  | .grip => "Grip"

/-- The shape of the given name, in any case. -/
def ofName? (name : List Char) : Option HandShape :=
  all.find? fun shape => Text.sameIgnoringCase shape.name.toList name

/-- A change to `shape` at `position` of the track. -/
structure Change where
  position : Single
  shape : HandShape
  deriving DecidableEq

/-- Changes in the order in which they were added. -/
structure Timeline where
  changes : List Change
  deriving DecidableEq

namespace Timeline

def empty : Timeline := ⟨[]⟩

def add (timeline : Timeline) (change : Change) : Timeline := ⟨timeline.changes ++ [change]⟩

/-- The shape after the last listed change that does not lie behind
`position`. -/
def shapeAt? (timeline : Timeline) (position : Single) : Option HandShape :=
  (timeline.changes.reverse.find? fun change => change.position ≤ position).map Change.shape

end Timeline

end HandShape

end LimbAnimation
