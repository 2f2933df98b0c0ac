import LimbAnimation.Proofs.Playback.Limbs

/-!
# Playbacks at the same time

A playback whose timer is the same number shows the same: zeros of both signs are one point
of time.  Curves, changes of shape and restrictions are all read off by comparisons and by
quotients over lengths that do not depend on the timer.
-/

namespace LimbAnimation

open Single (SameNumber)

namespace Curve

theorem queried_same {query query' : Single} (same : SameNumber query query') :
    SameNumber (queried query) (queried query') := by
  unfold queried
  rw [same.isNaN_eq]
  split
  · exact .refl 0
  · exact same.clampUnit

section Alike

/-- A way to compare values that takes blends by the same weight for the same. -/
structure Compares {α : Type} [Blendable α] (Alike : α → α → Prop) : Prop where
  refl : ∀ value, Alike value value
  blend : ∀ start goal {weight weight' : Single}, SameNumber weight weight' →
    Alike (Blendable.blend start goal weight) (Blendable.blend start goal weight')

variable {α : Type} [Blendable α] {Alike : α → α → Prop} {position position' : Single}

theorem within_alike (compares : Compares Alike) (before after : Key α)
    (same : SameNumber position position') :
    Alike (within before after position) (within before after position') := by
  unfold within
  dsimp only
  rw [same.equals_eq after.position, same.equals_eq before.position]
  split
  · exact compares.refl _
  · split
    · exact compares.refl _
    · exact compares.blend _ _ ((same.sub (.refl _)).div_right _)

omit [Blendable α] in
theorem brackets_iff (before after : Key α) (same : SameNumber position position') :
    Brackets before after position ↔ Brackets before after position' :=
  and_congr ((SameNumber.refl _).le_iff_le same) (same.le_iff_le (.refl _))

theorem scan?_alike (compares : Compares Alike) (same : SameNumber position position')
    (keys : List (Key α)) : Option.Rel Alike (scan? position keys) (scan? position' keys) := by
  induction keys with
  | nil => exact .none
  | cons before rest ih =>
      cases rest with
      | nil => exact .none
      | cons after rest =>
          rw [scan?, scan?]
          by_cases around : Brackets before after position
          · rw [if_pos around, if_pos ((brackets_iff before after same).mp around)]
            exact .some (within_alike compares before after same)
          · rw [if_neg around, if_neg (mt (brackets_iff before after same).mpr around)]
            exact ih

theorem rel_refl (compares : Compares Alike) (value : Option α) : Option.Rel Alike value value := by
  cases value with
  | none => exact .none
  | some value => exact .some (compares.refl value)

theorem valueAt?_alike (compares : Compares Alike) (curve : Curve α) {query query' : Single}
    (same : SameNumber query query') :
    Option.Rel Alike (curve.valueAt? query) (curve.valueAt? query') := by
  have asked := queried_same same
  unfold valueAt?
  dsimp only
  cases curve.keys with
  | nil => exact .none
  | cons first rest =>
      cases rest with
      | nil => exact .some (compares.refl _)
      | cons second rest =>
          have scanned := scan?_alike compares asked (first :: second :: rest)
          have early := asked.le_iff_le (SameNumber.refl first.position)
          dsimp only
          generalize scan? (queried query) (first :: second :: rest) = found,
            scan? (queried query') (first :: second :: rest) = found' at scanned ⊢
          cases scanned with
          | some alike => exact .some alike
          | none =>
              simp only [Option.none_or, early]
              exact rel_refl compares _

end Alike

theorem compares_vec : Compares Vec.Same :=
  ⟨Vec.Same.refl, fun start goal _ _ same => (Vec.Same.refl start).blend (.refl goal) same⟩

theorem compares_single : Compares SameNumber :=
  ⟨SameNumber.refl, fun start goal _ _ same => (SameNumber.refl start).blend (.refl goal) same⟩

end Curve

theorem HandShape.Timeline.shapeAt?_same (timeline : Timeline) {position position' : Single}
    (same : SameNumber position position') :
    timeline.shapeAt? position = timeline.shapeAt? position' := by
  have reached : ∀ change : Change, change.position ≤ position ↔ change.position ≤ position' :=
    fun change => (SameNumber.refl change.position).le_iff_le same
  simp only [shapeAt?, reached]

theorem RestrictionTimeline.restrictionsAt_same (timeline : RestrictionTimeline)
    {time time' : Single} (same : SameNumber time time') :
    timeline.restrictionsAt time = timeline.restrictionsAt time' := by
  have begun : ∀ entry : RestrictionEntry, entry.time ≤ time ↔ entry.time ≤ time' :=
    fun entry => (SameNumber.refl entry.time).le_iff_le same
  simp only [restrictionsAt, entryAt?, begun]

namespace Track

variable (track : Track) (placement : Placement) (relative : Bool) (procedural : LimbPose)

theorem carriedTo_same (curve : Curve Vec) {value value' : Vec} (same : value.Same value') :
    (track.carriedTo placement relative procedural curve value).Same
      (track.carriedTo placement relative procedural curve value') := by
  have moved : (movedTo placement relative procedural.position curve value).Same
      (movedTo placement relative procedural.position curve value') := by
    have placed := placement.place_same same
    unfold movedTo
    split
    · exact (placed.add (.refl _)).sub (.refl _)
    · exact placed
  unfold carriedTo
  dsimp only
  split
  · exact moved.rotatedAround (.refl _) _
  · exact moved

variable {progress progress' : Single}

theorem positionAt_same (same : SameNumber progress progress') :
    (track.positionAt placement relative procedural progress).Same
      (track.positionAt placement relative procedural progress') := by
  rw [positionAt_eq, positionAt_eq]
  cases track.translation with
  | none => exact .refl _
  | some curve =>
      have values := curve.valueAt?_alike Curve.compares_vec same
      rw [Option.bind_some, Option.bind_some]
      generalize curve.valueAt? progress = value, curve.valueAt? progress' = value' at values ⊢
      cases values with
      | none => exact .refl _
      | some alike => exact track.carriedTo_same placement relative procedural curve alike

theorem rotationAt_same (same : SameNumber progress progress') :
    SameNumber (track.rotationAt placement procedural progress)
      (track.rotationAt placement procedural progress') := by
  unfold rotationAt
  cases track.rotation with
  | none => exact .refl _
  | some curve =>
      have values := curve.valueAt?_alike Curve.compares_single same
      rw [Option.bind_some, Option.bind_some]
      generalize curve.valueAt? progress = value, curve.valueAt? progress' = value' at values ⊢
      cases values with
      | none => exact .refl _
      | some alike => exact (SameNumber.refl _).add (alike.mul_right _)

theorem scaleAt_same (same : SameNumber progress progress') :
    (track.scaleAt procedural progress).Same (track.scaleAt procedural progress') := by
  unfold scaleAt
  cases track.scale with
  | none => exact .refl _
  | some curve =>
      have values := curve.valueAt?_alike Curve.compares_vec same
      rw [Option.bind_some, Option.bind_some]
      generalize curve.valueAt? progress = value, curve.valueAt? progress' = value' at values ⊢
      cases values with
      | none => exact .refl _
      | some alike => exact alike

theorem sample_same (same : SameNumber progress progress') :
    (track.sample placement relative procedural progress).Same
      (track.sample placement relative procedural progress') where
  position := track.positionAt_same placement relative procedural same
  rotation := track.rotationAt_same placement procedural same
  scale := track.scaleAt_same procedural same
  shape := by simp only [sample, shapeAt?, track.shapes.shapeAt?_same same]

end Track

namespace Playback

/-- The same playback at the same time, numerically. -/
structure Same (left right : Playback) : Prop where
  id : left.id = right.id
  clip : left.clip = right.clip
  speed : left.speed = right.speed
  timer : SameNumber left.timer right.timer
  awaited : left.awaited = right.awaited

namespace Same

variable {left right : Playback}

theorem isOver_eq (same : Same left right) : left.isOver = right.isOver := by
  have reached := (SameNumber.refl right.clip.duration).le_iff_le same.timer
  rw [isOver, isOver, same.clip]
  exact decide_eq_decide.mpr reached

theorem restrictions_eq (same : Same left right) : left.restrictions = right.restrictions := by
  rw [restrictions, restrictions, same.clip]
  exact right.clip.restrictions.restrictionsAt_same same.timer

theorem sampleLimb (same : Same left right) (placement : Placement) (relative : Bool)
    (track : Option Track) (procedural : LimbPose) :
    (left.sampleLimb placement relative track procedural).Same
      (right.sampleLimb placement relative track procedural) := by
  cases track with
  | none => exact .refl _
  | some track =>
      have progress : SameNumber (left.progress track) (right.progress track) := by
        unfold Playback.progress
        split
        · exact .refl _
        · exact same.timer.div_right _
      exact track.sample_same placement relative procedural progress

theorem sample (same : Same left right) (placement : Placement) (procedural : Pose) :
    (left.sample placement procedural).Same (right.sample placement procedural) := by
  apply Pose.same_of_limbs
  intro slot
  rw [sample_limb, sample_limb, same.clip]
  exact same.sampleLimb placement _ _ _

end Same

end Playback

end LimbAnimation
