import LimbAnimation.Playback.Basic
import LimbAnimation.Single.Text
import LimbAnimation.Text.Visible

/-!
# Descriptions of playbacks

A text that shows all there is to know about a playback but the clip itself.
-/

namespace LimbAnimation

namespace Playback

def recordText (name : String) (parts : List (String × String)) : String :=
  name ++ " \x7b " ++ String.intercalate ", " (parts.map fun (label, value) =>
    label ++ ": " ++ value) ++ " \x7d"

def description (playback : Playback) : String :=
  recordText "ActiveAnimation"
    [("id", "InstId(" ++ toString playback.id.number.toNat ++ ")"),
      ("animation", recordText "AnimationKey"
        [("name", Text.quoted playback.clip.key.name),
          ("group", Text.quoted playback.clip.key.group)]),
      ("speed", playback.speed.scientific),
      ("unscaled_timer", playback.timer.scientific),
      ("has_on_end", toString playback.awaited)]

end Playback

end LimbAnimation
