import LimbAnimation.Single.Basic

/-!
# Blends

Two numbers of the unit interval drive a character: the mix, which goes from the
previous animation to the main one, and the weight of the animation against the
character's own pose.
-/

namespace LimbAnimation

/-- A quadratic ease in and out on the unit interval. -/
def easeInOut (value : Single) : Single :=
  let value := value.clampUnit
  if value < Single.half then 2 * value * value
  else
    let rest := -2 * value + 2
    1 - rest * rest / 2

structure Blend where
  mix : Single
  mixDuration : Single
  weight : Single
  easedWeight : Single
  deriving DecidableEq

inductive Pull where
  | pinned
  | toAnimation
  | toProcedural
  deriving DecidableEq

namespace Blend

/-- Nothing to mix, and no weight on animations. -/
def start (mixDuration : Single) : Blend := ⟨1, mixDuration, 0, 0⟩

/-- The blend with the mix some seconds further at a speed. -/
def stepMix (blend : Blend) (seconds speed : Single) : Blend :=
  let rate := if 0 < blend.mixDuration then seconds / blend.mixDuration * speed else 1
  { blend with mix := (blend.mix + rate).clampUnit }

/-- The weight some seconds later, before it is eased. -/
def pulledWeight (weight seconds window : Single) (pull : Pull) : Single :=
  let step := if 0 < window then seconds / window else 1
  match pull with
  | .pinned => (1 : Single).clampUnit
  | .toAnimation => (weight + step).clampUnit
  | .toProcedural => (weight + -step).clampUnit

def stepWeight (blend : Blend) (seconds window : Single) (pull : Pull) : Blend :=
  let weight := pulledWeight blend.weight seconds window pull
  { blend with weight := weight, easedWeight := easeInOut weight }

end Blend

end LimbAnimation
