import LimbAnimation.Playback.Sampling
import LimbAnimation.Proofs.SamePose

/-!
# Limbs and their tracks

A playback drives each limb of a character by one track of its clip, and nothing else of the
clip or of the character shows there.  A limb without a track, and a part of a limb without
keys, stays as it would be without the playback.
-/

namespace LimbAnimation

/-- A limb of a pose; hands are counted from zero. -/
inductive Slot where
  | body
  | head
  | hand (side : Fin handCount)
  deriving DecidableEq

def Slot.isHand : Slot → Bool
  | .hand _ => true
  | _ => false

def Pose.limb (pose : Pose) : Slot → LimbPose
  | .body => pose.body
  | .head => pose.head
  | .hand side => if side.val = 0 then pose.firstHand else pose.secondHand

theorem Pose.same_of_limbs {left right : Pose}
    (same : ∀ slot, (left.limb slot).Same (right.limb slot)) : left.Same right where
  body := same .body
  head := same .head
  firstHand := same (.hand ⟨0, by decide⟩)
  secondHand := same (.hand ⟨1, by decide⟩)

/-- The track that drives a limb; on a mirrored character each hand has the track of the
other one. -/
def Clip.trackFor? (clip : Clip) (flipped : Bool) : Slot → Option Track
  | .body => clip.body
  | .head => clip.head
  | .hand side => clip.hands[if flipped then handCount - 1 - side.val else side.val]?

/-- The curve is missing, or it has no keys. -/
def Curve.Missing {α : Type} (curve : Option (Curve α)) : Prop :=
  ∀ present ∈ curve, present.keys = []

theorem Curve.valueAt?_of_no_keys {α : Type} [Blendable α] {curve : Curve α}
    (noKeys : curve.keys = []) (query : Single) : curve.valueAt? query = none := by
  simp [valueAt?, noKeys]

theorem Curve.bind_valueAt?_of_missing {α : Type} [Blendable α] {curve : Option (Curve α)}
    (missing : Missing curve) (query : Single) :
    (curve.bind fun present => present.valueAt? query) = none := by
  apply Option.bind_eq_none_iff.mpr
  intro present same
  exact valueAt?_of_no_keys (missing present same) query

namespace Track

section Position

variable (track : Track) (placement : Placement) (relative : Bool) (procedural : LimbPose)

/-- Where a value of the translation moves the limb, before it turns with the aim. -/
def movedTo (placement : Placement) (relative : Bool) (start : Vec) (curve : Curve Vec)
    (value : Vec) : Vec :=
  match relative, curve.first? with
  | true, some first => placement.place value + start - placement.place first
  | _, _ => placement.place value

/-- Where a value of the translation brings the limb. -/
def carriedTo (curve : Curve Vec) (value : Vec) : Vec :=
  let moved := movedTo placement relative procedural.position curve value
  if track.followsAim then moved.rotatedAround procedural.position placement.aimAngle else moved

theorem positionAt_eq (progress : Single) :
    track.positionAt placement relative procedural progress =
      (track.translation.bind fun curve => (curve.valueAt? progress).map
        (track.carriedTo placement relative procedural curve)).getD procedural.position := by
  unfold positionAt
  cases track.translation with
  | none => rfl
  | some curve =>
      cases sampled : curve.valueAt? progress with
      | none => simp [sampled]
      | some value =>
          simp only [sampled, Option.bind_some, Option.map_some, Option.getD_some]
          rfl

end Position

section Missing

variable {track : Track} {placement : Placement} {relative : Bool} {procedural : LimbPose}
  {progress : Single}

theorem positionAt_of_missing (missing : Curve.Missing track.translation) :
    track.positionAt placement relative procedural progress = procedural.position := by
  have nowhere : (track.translation.bind fun curve => (curve.valueAt? progress).map
      (track.carriedTo placement relative procedural curve)) = none := by
    apply Option.bind_eq_none_iff.mpr
    intro curve present
    rw [Curve.valueAt?_of_no_keys (missing curve present) progress, Option.map_none]
  rw [positionAt_eq, nowhere, Option.getD_none]

theorem rotationAt_of_missing (missing : Curve.Missing track.rotation) :
    track.rotationAt placement procedural progress = procedural.rotation := by
  rw [rotationAt, Curve.bind_valueAt?_of_missing missing]

theorem scaleAt_of_missing (missing : Curve.Missing track.scale) :
    track.scaleAt procedural progress = procedural.scale := by
  rw [scaleAt, Curve.bind_valueAt?_of_missing missing, Option.getD_none]

theorem shapeAt?_of_no_changes (noChanges : track.shapes.changes = []) :
    track.shapeAt? procedural progress = procedural.shape := by
  rw [shapeAt?, noChanges]
  rfl

end Missing

end Track

namespace Playback

section Isolation

variable (playback : Playback) (placement : Placement) (procedural : Pose)

/-- A limb of the pose is read off its own track alone. -/
theorem sample_limb (slot : Slot) :
    (playback.sample placement procedural).limb slot =
      playback.sampleLimb placement (slot.isHand && playback.clip.relativeHands)
        (playback.clip.trackFor? placement.flipped slot) (procedural.limb slot) := by
  cases slot with
  | body => rfl
  | head => rfl
  | hand side =>
      match side with
      | ⟨0, _⟩ =>
          cases flipped : placement.flipped <;>
            simp [Pose.limb, sample, Clip.trackFor?, Slot.isHand, flipped, handCount]
      | ⟨1, _⟩ =>
          cases flipped : placement.flipped <;>
            simp [Pose.limb, sample, Clip.trackFor?, Slot.isHand, flipped, handCount]

theorem sample_limb_driven {slot : Slot} {track : Track}
    (driven : playback.clip.trackFor? placement.flipped slot = some track) :
    (playback.sample placement procedural).limb slot =
      track.sample placement (slot.isHand && playback.clip.relativeHands) (procedural.limb slot)
        (playback.progress track) := by
  rw [sample_limb, driven]
  rfl

/-- What does not concern a limb makes no difference to it. -/
theorem sample_limb_congr {other : Playback} {otherProcedural : Pose} {slot : Slot}
    (timer : other.timer = playback.timer)
    (track : other.clip.trackFor? placement.flipped slot =
      playback.clip.trackFor? placement.flipped slot)
    (relative : slot.isHand = true → other.clip.relativeHands = playback.clip.relativeHands)
    (limb : otherProcedural.limb slot = procedural.limb slot) :
    (other.sample placement otherProcedural).limb slot =
      (playback.sample placement procedural).limb slot := by
  have relatively : (slot.isHand && other.clip.relativeHands) =
      (slot.isHand && playback.clip.relativeHands) := by
    cases isHand : slot.isHand with
    | false => rfl
    | true => rw [relative isHand]
  rw [sample_limb, sample_limb, track, limb, relatively]
  cases playback.clip.trackFor? placement.flipped slot with
  | none => rfl
  | some own => simp only [sampleLimb, progress, timer]

/-- Hand tracks from the third one on belong to no limb. -/
theorem trackFor?_withHands {clip : Clip} {hands : List Track}
    (firstTwo : hands.take handCount = clip.hands.take handCount) (flipped : Bool) (slot : Slot) :
    { clip with hands := hands }.trackFor? flipped slot = clip.trackFor? flipped slot := by
  cases slot with
  | body => rfl
  | head => rfl
  | hand side =>
      have inRange : (if flipped then handCount - 1 - side.val else side.val) < handCount := by
        have bounded := side.isLt
        split <;> omega
      show hands[_]? = clip.hands[_]?
      rw [← List.getElem?_take_of_lt inRange, firstTwo, List.getElem?_take_of_lt inRange]

end Isolation

/-- A limb of a sampled pose is its own track, read at the timer and placed relative to its own
procedural limb.  So whatever two playbacks and two procedural poses have besides the timer,
that track and that limb, and for hands the relative movement, the limb is the same.  Without
a track it is the procedural one; a driven limb has the procedural position, rotation or scale
where the curve is missing or empty, and the procedural shape where the track has no changes
of shape.  Hand tracks from the third one on change nothing. -/
theorem limbs_are_isolated (playback : Playback) (placement : Placement) (procedural : Pose)
    (slot : Slot) :
    let shown := (playback.sample placement procedural).limb slot
    let own := procedural.limb slot
    let track? := playback.clip.trackFor? placement.flipped slot
    (∀ (other : Playback) (otherProcedural : Pose), other.timer = playback.timer →
        other.clip.trackFor? placement.flipped slot = track? →
        (slot.isHand = true → other.clip.relativeHands = playback.clip.relativeHands) →
        otherProcedural.limb slot = own →
        (other.sample placement otherProcedural).limb slot = shown) ∧
      (track? = none → shown = own) ∧
      (∀ track, track? = some track →
        shown = track.sample placement (slot.isHand && playback.clip.relativeHands) own
            (playback.progress track) ∧
          (Curve.Missing track.translation → shown.position = own.position) ∧
          (Curve.Missing track.rotation → shown.rotation = own.rotation) ∧
          (Curve.Missing track.scale → shown.scale = own.scale) ∧
          (track.shapes.changes = [] → shown.shape = own.shape)) ∧
      ∀ hands : List Track, hands.take handCount = playback.clip.hands.take handCount →
        let trimmed := { playback with clip := { playback.clip with hands := hands } }
        (trimmed.sample placement procedural).limb slot = shown := by
  intro shown own track?
  refine ⟨?_, ?_, ?_, ?_⟩
  · intro other otherProcedural timer track relative limb
    exact sample_limb_congr playback placement procedural timer track relative limb
  · intro undriven
    show (playback.sample placement procedural).limb slot = own
    rw [sample_limb, show playback.clip.trackFor? placement.flipped slot = none from undriven]
    rfl
  · intro track driven
    have sampled : shown = _ := sample_limb_driven playback placement procedural driven
    refine ⟨sampled, ?_, ?_, ?_, ?_⟩
    · intro missing
      rw [sampled]
      exact Track.positionAt_of_missing missing
    · intro missing
      rw [sampled]
      exact Track.rotationAt_of_missing missing
    · intro missing
      rw [sampled]
      exact Track.scaleAt_of_missing missing
    · intro noChanges
      rw [sampled]
      exact Track.shapeAt?_of_no_changes noChanges
  · intro hands firstTwo trimmed
    exact sample_limb_congr playback placement procedural rfl
      (trackFor?_withHands firstTwo placement.flipped slot) (fun _ => rfl) rfl

/-- A hand that reaches to a place for four seconds. -/
def reach (place : Single) : Track :=
  { limb := .hand 0, duration := 4, followsAim := false, translation := some ⟨[⟨⟨place, 0⟩, 0⟩]⟩
    rotation := none, scale := none, shapes := .empty }

/-- On a mirrored character the only hand track drives the second hand, whatever the body and
the first hand do. -/
theorem mirrored_hand_is_isolated :
    let placement : Placement := ⟨true, 0, 1⟩
    let clip : Clip := ⟨⟨"reach", "guard"⟩, none, none, [reach 3], .empty, 4, false, true⟩
    let busy : Clip := { clip with body := some (reach 5), hands := [reach 3, reach 8] }
    let playback := Playback.start ⟨0⟩ clip 1
    let other := Playback.start ⟨7⟩ busy 2
    let leaning : Pose := { Pose.rest with body := ⟨⟨9, 9⟩, 45, .one, none⟩ }
    let second : Slot := .hand ⟨1, by decide⟩
    let shown := (playback.sample placement .rest).limb second
    other.timer = playback.timer ∧
      other.clip.trackFor? true second = playback.clip.trackFor? true second ∧
      leaning.limb second = Pose.rest.limb second ∧
      (other.sample placement leaning).limb second = shown ∧ shown.rotation = 0 ∧
      (other.sample placement leaning).limb .body ≠
        (playback.sample placement .rest).limb .body := by
  intro placement clip busy playback other leaning second shown
  obtain ⟨same, _, driven, _⟩ := limbs_are_isolated playback placement .rest second
  refine ⟨rfl, rfl, rfl, same other leaning rfl rfl (fun _ => rfl) rfl, ?_, by decide +kernel⟩
  have rotationMissing : Curve.Missing (reach 3).rotation := by
    intro present isPresent
    cases isPresent
  exact (driven (reach 3) rfl).2.2.1 rotationMissing

end Playback

end LimbAnimation
