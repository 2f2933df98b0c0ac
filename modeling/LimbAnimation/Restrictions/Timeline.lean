import LimbAnimation.Restrictions.Basic
import LimbAnimation.Single.Bits

/-!
# Restriction timelines

A timeline lists sets of restrictions with the seconds from which they hold.
-/

namespace LimbAnimation

/-- From `time` on, `restrictions` hold. -/
structure RestrictionEntry where
  time : Single
  restrictions : Restrictions
  deriving DecidableEq

/-- Entries in the order in which they were added or sorted. -/
structure RestrictionTimeline where
  entries : List RestrictionEntry
  deriving DecidableEq

namespace RestrictionTimeline

def empty : RestrictionTimeline := ⟨[]⟩

def add (timeline : RestrictionTimeline) (entry : RestrictionEntry) : RestrictionTimeline :=
  ⟨timeline.entries ++ [entry]⟩

/-- The entries by time in the total order; entries of one time keep their
order. -/
def sorted (timeline : RestrictionTimeline) : RestrictionTimeline :=
  ⟨timeline.entries.mergeSort fun earlier later =>
    decide (earlier.time.totalKey ≤ later.time.totalKey)⟩

/-- The last entry that has begun by `time`. -/
def entryAt? (timeline : RestrictionTimeline) (time : Single) : Option RestrictionEntry :=
  timeline.entries.reverse.find? fun entry => entry.time ≤ time

/-- The restrictions that hold at `time`. -/
def restrictionsAt (timeline : RestrictionTimeline) (time : Single) : Restrictions :=
  match timeline.entryAt? time with
  | some entry => entry.restrictions
  | none => .empty

end RestrictionTimeline

end LimbAnimation
