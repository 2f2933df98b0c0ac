import Mathlib.Algebra.Group.Nat.Defs
import LimbAnimation.Stage.Exchange

/-!
# The numbers in a value

Clips, poses and what goes in and out of a stage hold singles, and a track may hold the
index of a hand.  Here they are listed, so that one condition on all of them can be stated
for every kind of value.
-/

namespace LimbAnimation

/-- A type whose values hold numbers. -/
class HasNumbers (α : Type) where
  singles : α → List Single := fun _ => []
  /-- The indices of hands. -/
  indices : α → List Nat := fun _ => []

export HasNumbers (singles indices)

/-- All singles in a value are finite. -/
def AllFinite {α : Type} [HasNumbers α] (value : α) : Prop :=
  ∀ single ∈ singles value, single.isFinite = true

/-- All indices in a value have at most 64 bits. -/
def AllIndexed {α : Type} [HasNumbers α] (value : α) : Prop :=
  ∀ index ∈ indices value, index < 2 ^ 64

section Instances

variable {α : Type} [HasNumbers α]

instance (value : α) : Decidable (AllFinite value) :=
  inferInstanceAs (Decidable (∀ single ∈ singles value, single.isFinite = true))

instance (value : α) : Decidable (AllIndexed value) :=
  inferInstanceAs (Decidable (∀ index ∈ indices value, index < 2 ^ 64))

instance : HasNumbers Single where
  singles value := [value]

instance : HasNumbers Bool where

instance : HasNumbers String where

instance : HasNumbers UInt32 where

instance : HasNumbers Restrictions where

instance : HasNumbers HandShape where

instance : HasNumbers ClipKey where

instance : HasNumbers PlaybackId where

instance : HasNumbers ActorId where

instance : HasNumbers (List α) where
  singles values := values.flatMap singles
  indices values := values.flatMap indices

instance : HasNumbers (Option α) where
  singles value := value.toList.flatMap singles
  indices value := value.toList.flatMap indices

theorem AllFinite.each {values : List α} (finite : AllFinite values) {value : α}
    (member : value ∈ values) : AllFinite value := by
  intro single held
  exact finite single (List.mem_flatMap_of_mem member held)

theorem AllIndexed.each {values : List α} (indexed : AllIndexed values) {value : α}
    (member : value ∈ values) : AllIndexed value := by
  intro index held
  exact indexed index (List.mem_flatMap_of_mem member held)

theorem AllFinite.content {value : Option α} (finite : AllFinite value) {content : α}
    (present : content ∈ value) : AllFinite content := by
  intro single held
  exact finite single (List.mem_flatMap_of_mem (Option.mem_toList.mpr present) held)

theorem AllIndexed.content {value : Option α} (indexed : AllIndexed value) {content : α}
    (present : content ∈ value) : AllIndexed content := by
  intro index held
  exact indexed index (List.mem_flatMap_of_mem (Option.mem_toList.mpr present) held)

instance : HasNumbers Vec where
  singles vector := [vector.x, vector.y]

instance : HasNumbers (Key α) where
  singles key := singles key.value ++ [key.position]
  indices key := indices key.value

instance : HasNumbers (Curve α) where
  singles curve := singles curve.keys
  indices curve := indices curve.keys

instance : HasNumbers RestrictionEntry where
  singles entry := [entry.time]

instance : HasNumbers RestrictionTimeline where
  singles timeline := singles timeline.entries

instance : HasNumbers HandShape.Change where
  singles change := [change.position]

instance : HasNumbers HandShape.Timeline where
  singles timeline := singles timeline.changes

instance : HasNumbers Limb where
  indices
    | .hand index => [index]
    | _ => []

instance : HasNumbers Track where
  singles track := track.duration :: (singles track.translation ++ singles track.rotation ++
    singles track.scale ++ singles track.shapes)
  indices track := indices track.limb

instance : HasNumbers Clip where
  singles clip := singles clip.body ++ singles clip.head ++ singles clip.hands ++
    singles clip.restrictions ++ [clip.duration]
  indices clip := indices clip.body ++ indices clip.head ++ indices clip.hands

instance : HasNumbers LimbPose where
  singles limb := singles limb.position ++ limb.rotation :: singles limb.scale

instance : HasNumbers Pose where
  singles pose := singles pose.body ++ singles pose.head ++ singles pose.firstHand ++
    singles pose.secondHand

instance : HasNumbers Placement where
  singles placement := [placement.aimAngle, placement.scale]

instance : HasNumbers Timing where
  singles timing := [timing.mixDuration, timing.transitionWindow, timing.defaultSpeed]

instance : HasNumbers Blend where
  singles blend := [blend.mix, blend.mixDuration, blend.weight, blend.easedWeight]

instance : HasNumbers Ended where
  singles ended := [ended.timer]

instance : HasNumbers ActorInput where
  singles input := singles input.procedural ++ singles input.placement

instance : HasNumbers Command where
  singles
    | .play _ _ speed => singles speed
    | _ => []

instance : HasNumbers Inputs where
  singles inputs := singles inputs.actors ++ singles inputs.commands

instance : HasNumbers Frame where
  singles frame := singles frame.pose

instance : HasNumbers Event where
  singles
    | .ended _ _ _ timer => [timer]
    | _ => []

instance : HasNumbers Outputs where
  singles outputs := singles outputs.frames ++ singles outputs.events

end Instances

end LimbAnimation
