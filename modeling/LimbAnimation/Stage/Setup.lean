import LimbAnimation.Forms.Playback
import LimbAnimation.Library.Failure

/-!
# Setting up a stage

A timing is read from a JSON text and checked: each of its numbers has to be finite and
positive.
-/

namespace LimbAnimation.Timing

/-- A timing whose numbers are all usable; otherwise the first that is not. -/
def checked (timing : Timing) : Except Failure Timing :=
  match timing.firstUnusable? with
  | none => .ok timing
  | some (name, value) => .error (.invalidTiming (complaint name value))

def ofText (layer : JsonText) (text : String) : Except Failure Timing :=
  match (layer.read? text).bind ofJson? with
  | some timing => checked timing
  | none => .error .unreadableTiming

end LimbAnimation.Timing
