import LimbAnimation.Single.Text

/-!
# Timing

How long a character takes to turn from one animation to the next and back to
its own pose, and how fast clips play unless told otherwise.
-/

namespace LimbAnimation

/-- The durations of fades, in seconds, and the usual speed. -/
structure Timing where
  mixDuration : Single
  transitionWindow : Single
  defaultSpeed : Single
  deriving DecidableEq

namespace Timing

/-- Five sixteenths of a second, a fifth of a second, and the written speed. -/
def standard : Timing := ⟨.ofRatio false 5 16, .ofRatio false 1 5, 1⟩

/-- The three numbers with the names that messages give them. -/
def named (timing : Timing) : List (String × Single) :=
  [("mix_duration", timing.mixDuration), ("transition_window", timing.transitionWindow),
    ("default_speed", timing.defaultSpeed)]

def isUsable (value : Single) : Bool := value.isFinite && decide (0 < value)

/-- The first number that may not stand in a timing. -/
def firstUnusable? (timing : Timing) : Option (String × Single) :=
  timing.named.find? fun (_, value) => !isUsable value

/-- The message about a number that may not stand in a timing. -/
def complaint (name : String) (value : Single) : String :=
  name ++ " must be a positive number, got " ++ value.plain

end Timing

end LimbAnimation
