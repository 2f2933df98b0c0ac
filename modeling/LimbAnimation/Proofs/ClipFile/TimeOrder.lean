import LimbAnimation.Proofs.ClipFile.Closings
import LimbAnimation.Proofs.Curve.Search
import LimbAnimation.Proofs.Single.Differences
import LimbAnimation.Proofs.Single.SameNumber

/-!
# Blocks in the order of time

Dividing by the longest time keeps the order of times, though quotients are rounded.  So a
block that is written in the order of time becomes a track whose curves and shapes stand in
the order of their positions, and nothing is said of keys that are set back.
-/

namespace LimbAnimation

open Single (InUnit)

/-- On all curves and in the sequence of shapes, positions never fall. -/
structure Track.InOrder (track : Track) : Prop where
  translation : Curve.Ordered (Curve.keysOr0 track.translation)
  rotation : Curve.Ordered (Curve.keysOr0 track.rotation)
  scale : Curve.Ordered (Curve.keysOr0 track.scale)
  shapes : track.shapes.changes.Pairwise fun earlier later => earlier.position ≤ later.position

namespace ClipFile

namespace Block

/-- The times of the keyframes never fall. -/
def InTimeOrder (block : Block) : Prop :=
  block.keyframes.Pairwise fun earlier later => earlier.time ≤ later.time

/-- The times of a block, divided by its duration: zero and the duration itself lead to the
ends of the unit interval, and no two times change their order. -/
structure Normalized (block : Block) : Prop where
  inUnit : ∀ keyframe ∈ block.keyframes, InUnit (block.position keyframe)
  atStart : ∀ keyframe ∈ block.keyframes, keyframe.time.equals 0 = true →
    (block.position keyframe).equals 0 = true
  atEnd : ∀ keyframe ∈ block.keyframes, keyframe.time.equals block.duration = true →
    block.position keyframe = 1
  ordered : ∀ earlier ∈ block.keyframes, ∀ later ∈ block.keyframes,
    earlier.time ≤ later.time → block.position earlier ≤ block.position later

theorem keys_eq {α : Type} (block : Block) (channel : Keyframe → Option α) :
    block.keys channel = block.keyframes.filterMap fun keyframe =>
      (channel keyframe).map fun value => ⟨value, block.position keyframe⟩ := rfl

section Fractions

variable {duration earlier later : Single}

theorem fraction_of_positive (positive : 0 < duration) (time : Single) :
    fraction duration time = time / duration := if_pos positive

theorem fraction_le_fraction (nonnegative : 0 ≤ earlier) (ordered : earlier ≤ later)
    (atMost : later ≤ duration) (finite : duration.isFinite = true) :
    fraction duration earlier ≤ fraction duration later := by
  unfold fraction
  split
  next positive =>
      have laterFinite :=
        Single.isFinite_of_between (Single.le_trans nonnegative ordered) atMost finite
      exact Single.div_le_div nonnegative ordered laterFinite finite positive
  next => exact Single.le_refl Single.zero_isNaN

/-- Within an infinite duration, finite times are at zero and infinite ones nowhere. -/
theorem not_fraction_lt_fraction (nonnegative : 0 ≤ earlier) (ordered : earlier ≤ later)
    (atMost : later ≤ duration) : ¬ fraction duration later < fraction duration earlier := by
  by_cases finite : duration.isFinite = true
  · exact Single.not_lt_of_le (fraction_le_fraction nonnegative ordered atMost finite)
  · have whole := Single.le_trans nonnegative (Single.le_trans ordered atMost)
    obtain rfl := Single.eq_infinite_of_nonnegative whole finite
    simp only [fraction_of_positive Single.infinite_positive]
    exact Single.not_lt_div_infinite

end Fractions

section Sound

variable {block : Block}

theorem normalized (sound : ∀ keyframe ∈ block.keyframes, keyframe.Sound)
    (finite : block.duration.isFinite = true) (positive : 0 < block.duration) :
    block.Normalized := by
  have atMost := (duration_bounds sound).2
  constructor
  case inUnit =>
      intro keyframe member
      exact fraction_inUnit (sound keyframe member).time (atMost keyframe member) finite
  case atStart =>
      intro keyframe _ start
      rw [position, fraction_of_positive positive]
      have startAt := Single.finiteAt_of_equals_zero start
      exact (Single.zero_div_finiteAt startAt finite positive).equals_zero
  case atEnd =>
      intro keyframe _ last
      rw [position, fraction_of_positive positive]
      exact Single.div_eq_one last positive finite
  case ordered =>
      intro earlier earlierMember later laterMember ordered
      exact fraction_le_fraction (sound earlier earlierMember).time ordered
        (atMost later laterMember) finite

theorem positions_ordered (sound : ∀ keyframe ∈ block.keyframes, keyframe.Sound)
    (ordered : block.InTimeOrder) (finite : block.duration.isFinite = true) :
    block.keyframes.Pairwise fun earlier later =>
      block.position earlier ≤ block.position later := by
  have atMost := (duration_bounds sound).2
  refine List.Pairwise.imp_of_mem ?_ ordered
  intro earlier later earlierMember laterMember inTime
  exact fraction_le_fraction (sound earlier earlierMember).time inTime
    (atMost later laterMember) finite

/-- What keyframes in order give stands in order at their positions. -/
theorem given_ordered {α β : Type} {Before : β → β → Prop} (channel : Keyframe → Option α)
    (given : α → Single → β)
    (kept : ∀ value value' low high, low ≤ high → Before (given value low) (given value' high))
    (ordered : block.keyframes.Pairwise fun earlier later =>
      block.position earlier ≤ block.position later) :
    (block.keyframes.filterMap fun keyframe =>
      (channel keyframe).map fun value => given value (block.position keyframe)).Pairwise
        Before := by
  refine List.Pairwise.filterMap _ ?_ ordered
  intro earlier later inOrder first made second made'
  obtain ⟨value, _, rfl⟩ := Option.map_eq_some_iff.mp made
  obtain ⟨value', _, rfl⟩ := Option.map_eq_some_iff.mp made'
  exact kept value value' _ _ inOrder

theorem track_inOrder (sound : ∀ keyframe ∈ block.keyframes, keyframe.Sound)
    (ordered : block.InTimeOrder) (finite : block.duration.isFinite = true) :
    block.track.InOrder := by
  have positions := positions_ordered sound ordered finite
  have curve {α : Type} (channel : Keyframe → Option α) :
      Curve.Ordered (Curve.keysOr0 (block.curve? channel)) := by
    rw [keysOr0_curve?, keys_eq]
    exact given_ordered channel Key.mk (fun _ _ _ _ atMost => atMost) positions
  refine ⟨curve Keyframe.position, curve Keyframe.rotation, curve Keyframe.scale, ?_⟩
  rw [block.track_bears.shapes]
  refine given_ordered Keyframe.shape (fun shape position => HandShape.Change.mk position shape)
    ?_ positions
  exact fun _ _ _ _ atMost => atMost

end Sound

section SetBacks

/-- No curve ends behind a position. -/
structure Ends.Reach (ends : Ends) (position : Single) : Prop where
  translation : ∀ last ∈ ends.translation, ¬ position < last
  rotation : ∀ last ∈ ends.rotation, ¬ position < last
  scale : ∀ last ∈ ends.scale, ¬ position < last

theorem setBack_eq_nil {α : Type} {last : Option Single} {position : Single}
    (reach : ∀ place ∈ last, ¬ position < place) (value : Option α) :
    setBack last value position = [] := by
  unfold setBack
  split
  next last value => exact if_neg (reach last rfl)
  next => rfl

theorem lastAfter_reach {α : Type} {last : Option Single} {position next : Single}
    (reach : ∀ place ∈ last, ¬ next < place) (behind : ¬ next < position) (value : Option α) :
    ∀ place ∈ lastAfter last value position, ¬ next < place := by
  unfold lastAfter
  split
  next =>
      rintro _ ⟨⟩
      exact behind
  next => exact reach

theorem setBacks_eq_nil {duration : Single} {keyframes : List Keyframe}
    (ordered : keyframes.Pairwise fun earlier later =>
      ¬ fraction duration later.time < fraction duration earlier.time)
    {ends : Ends} (reach : ∀ keyframe ∈ keyframes, ends.Reach (fraction duration keyframe.time)) :
    setBacks duration ends keyframes = [] := by
  induction keyframes generalizing ends with
  | nil => rfl
  | cons keyframe rest ih =>
      obtain ⟨behind, others⟩ := List.pairwise_cons.mp ordered
      obtain ⟨here, later⟩ := List.forall_mem_cons.mp reach
      simp only [setBacks, setBack_eq_nil here.translation, setBack_eq_nil here.rotation,
        setBack_eq_nil here.scale, List.nil_append]
      refine ih others fun next member => ?_
      exact ⟨lastAfter_reach (later next member).translation (behind next member) _,
        lastAfter_reach (later next member).rotation (behind next member) _,
        lastAfter_reach (later next member).scale (behind next member) _⟩

theorem notices_of_inTimeOrder {block : Block}
    (sound : ∀ keyframe ∈ block.keyframes, keyframe.Sound) (ordered : block.InTimeOrder)
    (key : ClipKey) :
    block.notices key =
      [.blockClosed key block.limb block.keyframes.length block.duration] := by
  have atMost := (duration_bounds sound).2
  have positions : block.keyframes.Pairwise fun earlier later =>
      ¬ fraction block.duration later.time < fraction block.duration earlier.time := by
    refine List.Pairwise.imp_of_mem ?_ ordered
    intro earlier later earlierMember laterMember inTime
    exact not_fraction_lt_fraction (sound earlier earlierMember).time inTime
      (atMost later laterMember)
  have reach (position : Single) : Ends.Reach ⟨none, none, none⟩ position := ⟨nofun, nofun, nofun⟩
  rw [notices, setBacks_eq_nil positions fun _ _ => reach _, List.nil_append]

end SetBacks

end Block

/-- The tracks of a clip are those of the blocks that close while its file is read, and all
that is said of blocks is what each closing leaves.  Keys and shapes stand on a track at the
positions of their keyframes.  With a finite duration that is not zero, a block is normalized;
and if its times never fall, then the positions on its track do not either, and its closing
sets no key back. -/
theorem closed_blocks_keep_time_order {key : ClipKey} {content : Bytes} {clip : Clip}
    (read : readClip key content = .ok clip) :
    let blocks := (Reader.start key).closings (Delivery.whole content).lines
    clip.tracks.Perm (blocks.map Block.track) ∧
      ((Delivery.whole content).notices key).filter Notice.isAboutBlock =
        blocks.flatMap (Block.notices key) ∧
      ∀ block ∈ blocks,
        block.track.Bears block.keyframes block.position ∧
        (block.duration.isFinite = true → 0 < block.duration → block.Normalized) ∧
        (block.InTimeOrder →
          (block.duration.isFinite = true → block.track.InOrder) ∧
          block.notices key =
            [.blockClosed key block.limb block.keyframes.length block.duration]) := by
  intro blocks
  obtain ⟨last, lines, seen, rfl⟩ := read_of_readClip read
  have proper := Reader.proper_start key
  have sound := Reader.closings_sound proper lines
  refine ⟨Reader.tracks_closings proper lines,
    Reader.noticesFrom_isAboutBlock proper lines seen, fun block member => ?_⟩
  refine ⟨block.track_bears, Block.normalized (sound block member), fun ordered => ⟨?_, ?_⟩⟩
  · exact Block.track_inOrder (sound block member) ordered
  · exact Block.notices_of_inTimeOrder (sound block member) ordered key

/-- Two blocks whose keyframes are written in the order of time. -/
theorem closed_blocks_keep_time_order_of_walk :
    let key : ClipKey := ⟨"walk", "guard"⟩
    let content := ("1\nBODY\n0s 0px 0px\n12 3px 4px\n.5s 90deg\n3s 6px 0px\n" ++
      "HAND\n1s point\n7s 1px 1px fist\n").toUTF8.data.toList
    let blocks := (Reader.start key).closings (Delivery.whole content).lines
    ∃ clip, readClip key content = .ok clip ∧ blocks.length = 2 ∧
      clip.tracks.Perm (blocks.map Block.track) ∧
      (∀ block ∈ blocks, block.track.Bears block.keyframes block.position ∧
        block.Normalized ∧ block.InTimeOrder ∧ block.track.InOrder) ∧
      ((Delivery.whole content).notices key).filter Notice.isAboutBlock =
        blocks.map fun block =>
          .blockClosed key block.limb block.keyframes.length block.duration := by
  intro key content blocks
  have computed : (readClip key content).toOption.isSome = true ∧ blocks.length = 2 ∧
      ∀ block ∈ blocks, block.duration.isFinite = true ∧ 0 < block.duration ∧
        block.keyframes.Pairwise fun earlier later => earlier.time ≤ later.time := by
    decide +kernel
  obtain ⟨readable, length, facts⟩ := computed
  obtain ⟨clip, found⟩ := Option.isSome_iff_exists.mp readable
  have read := toOption_eq_some_iff.mp found
  obtain ⟨tracks, notices, each⟩ := closed_blocks_keep_time_order read
  refine ⟨clip, read, length, tracks, fun block member => ?_, ?_⟩
  · obtain ⟨finite, positive, ordered⟩ := facts block member
    obtain ⟨bears, normalized, kept⟩ := each block member
    exact ⟨bears, normalized finite positive, ordered, (kept ordered).1 finite⟩
  · rw [notices, List.map_eq_flatMap]
    refine List.flatMap_congr fun block member => ?_
    exact ((each block member).2.2 (facts block member).2.2).2

end ClipFile

end LimbAnimation
