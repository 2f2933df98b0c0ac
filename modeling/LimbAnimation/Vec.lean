import LimbAnimation.Single.Trigonometry

/-!
# Vectors of the plane

Componentwise arithmetic on pairs of singles, rotation around a pivot, and the
linear blend that curves and poses are made of.
-/

namespace LimbAnimation

/-- A pair of singles, such as an offset or the factors of a scaling. -/
structure Vec where
  x : Single
  y : Single
  deriving DecidableEq

namespace Vec

def zero : Vec := ⟨0, 0⟩

def one : Vec := ⟨1, 1⟩

instance : Add Vec := ⟨fun left right => ⟨left.x + right.x, left.y + right.y⟩⟩

instance : Sub Vec := ⟨fun left right => ⟨left.x - right.x, left.y - right.y⟩⟩

instance : Neg Vec := ⟨fun vector => ⟨-vector.x, -vector.y⟩⟩

def scaledBy (vector : Vec) (factor : Single) : Vec := ⟨vector.x * factor, vector.y * factor⟩

def equals (left right : Vec) : Bool := left.x.equals right.x && left.y.equals right.y

/-- A vector turned counter-clockwise around `pivot`. -/
def rotatedAround (vector pivot : Vec) (degrees : Single) : Vec :=
  let angle := degrees.toRadians
  let sine := angle.sin
  let cosine := angle.cos
  let arm := vector - pivot
  pivot + ⟨arm.x * cosine - arm.y * sine, arm.x * sine + arm.y * cosine⟩

end Vec

/-- Values that can be mixed linearly. -/
class Blendable (α : Type u) where
  /-- The value at `weight` on the way from the first one to the second. -/
  blend : α → α → (weight : Single) → α

instance : Blendable Single := ⟨fun start goal weight => start + (goal - start) * weight⟩

instance : Blendable Vec :=
  ⟨fun start goal weight =>
    ⟨Blendable.blend start.x goal.x weight, Blendable.blend start.y goal.y weight⟩⟩

end LimbAnimation
