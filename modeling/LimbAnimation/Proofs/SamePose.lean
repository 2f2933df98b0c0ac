import LimbAnimation.Pose
import LimbAnimation.Proofs.Single.SameNumber

/-!
# The same pose

Vectors, limbs and poses are numerically the same when each of their components is the same
number and hands show the same shapes.  What is computed from them is the same as well, in
particular every blend.
-/

namespace LimbAnimation

open Single (SameNumber)

theorem Single.SameNumber.blend {start start' goal goal' weight weight' : Single}
    (starts : SameNumber start start') (goals : SameNumber goal goal')
    (weights : SameNumber weight weight') :
    SameNumber (Blendable.blend start goal weight) (Blendable.blend start' goal' weight') :=
  starts.add ((goals.sub starts).mul weights)

namespace Vec

/-- Numerically the same in both components. -/
structure Same (left right : Vec) : Prop where
  x : SameNumber left.x right.x
  y : SameNumber left.y right.y

namespace Same

variable {left right left' right' : Vec}

theorem refl (vector : Vec) : Same vector vector := ⟨.refl _, .refl _⟩

theorem trans {middle : Vec} (first : Same left middle) (second : Same middle right) :
    Same left right := ⟨first.x.trans second.x, first.y.trans second.y⟩

theorem add (same : Same left left') (same' : Same right right') :
    Same (left + right) (left' + right') := ⟨same.x.add same'.x, same.y.add same'.y⟩

theorem sub (same : Same left left') (same' : Same right right') :
    Same (left - right) (left' - right') := ⟨same.x.sub same'.x, same.y.sub same'.y⟩

theorem scaledBy (same : Same left left') (factor : Single) :
    Same (left.scaledBy factor) (left'.scaledBy factor) :=
  ⟨same.x.mul_right factor, same.y.mul_right factor⟩

theorem rotatedAround (same : Same left left') (pivot : Same right right') (degrees : Single) :
    Same (left.rotatedAround right degrees) (left'.rotatedAround right' degrees) := by
  have arm := same.sub pivot
  constructor
  · exact pivot.x.add ((arm.x.mul_right _).sub (arm.y.mul_right _))
  · exact pivot.y.add ((arm.x.mul_right _).add (arm.y.mul_right _))

theorem blend {start start' goal goal' : Vec} {weight weight' : Single}
    (starts : Same start start') (goals : Same goal goal') (weights : SameNumber weight weight') :
    Same (Blendable.blend start goal weight) (Blendable.blend start' goal' weight') :=
  ⟨starts.x.blend goals.x weights, starts.y.blend goals.y weights⟩

end Same

end Vec

theorem Placement.place_same {vector vector' : Vec} (placement : Placement)
    (same : vector.Same vector') : (placement.place vector).Same (placement.place vector') := by
  have flipped : Vec.Same ⟨vector.x * placement.flipSign, vector.y⟩
      ⟨vector'.x * placement.flipSign, vector'.y⟩ := ⟨same.x.mul_right _, same.y⟩
  exact flipped.scaledBy placement.scale

namespace LimbPose

/-- Numerically the same, with the same shape. -/
structure Same (left right : LimbPose) : Prop where
  position : left.position.Same right.position
  rotation : SameNumber left.rotation right.rotation
  scale : left.scale.Same right.scale
  shape : left.shape = right.shape

namespace Same

theorem refl (limb : LimbPose) : Same limb limb := ⟨.refl _, .refl _, .refl _, rfl⟩

theorem blend {start start' goal goal' : LimbPose} {weight weight' : Single}
    (starts : Same start start') (goals : Same goal goal') (weights : SameNumber weight weight') :
    Same (start.blend goal weight) (start'.blend goal' weight') where
  position := starts.position.blend goals.position weights
  rotation := starts.rotation.blend goals.rotation weights
  scale := starts.scale.blend goals.scale weights
  shape := by
    have early := weights.lt_iff_lt (SameNumber.refl Single.half)
    simp only [LimbPose.blend, early, starts.shape, goals.shape]

end Same

end LimbPose

namespace Pose

/-- Numerically the same limb by limb, with the same shapes. -/
structure Same (left right : Pose) : Prop where
  body : left.body.Same right.body
  head : left.head.Same right.head
  firstHand : left.firstHand.Same right.firstHand
  secondHand : left.secondHand.Same right.secondHand

namespace Same

theorem refl (pose : Pose) : Same pose pose := ⟨.refl _, .refl _, .refl _, .refl _⟩

theorem blend {start start' goal goal' : Pose} {weight weight' : Single}
    (starts : Same start start') (goals : Same goal goal') (weights : SameNumber weight weight') :
    Same (start.blend goal weight) (start'.blend goal' weight') where
  body := starts.body.blend goals.body weights
  head := starts.head.blend goals.head weights
  firstHand := starts.firstHand.blend goals.firstHand weights
  secondHand := starts.secondHand.blend goals.secondHand weights

end Same

end Pose

end LimbAnimation
