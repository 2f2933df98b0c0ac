import Mathlib.Algebra.Group.Nat.Defs
import LimbAnimation.Proofs.ClipFile.Sheet
import LimbAnimation.Proofs.Outcome
import LimbAnimation.Proofs.Single.Arithmetic

/-!
# The numbers of keyframes

Every number that is written in a clip file is finite.  Rotations and scales stay as
they are written; times and positions are converted, and a conversion can lead out of
range, but never to a NaN, and never to a negative time.
-/

namespace LimbAnimation

def Vec.isFinite (vector : Vec) : Bool := vector.x.isFinite && vector.y.isFinite

def Vec.isNumber (vector : Vec) : Bool := !vector.x.isNaN && !vector.y.isNaN

theorem Vec.isNumber_scaledBy {vector : Vec} {factor : Single} (finite : vector.isFinite = true)
    (factorFinite : factor.isFinite = true) : (vector.scaledBy factor).isNumber = true := by
  obtain ⟨x, y⟩ := Bool.and_eq_true_iff.mp finite
  simp only [isNumber, scaledBy, Single.mul_isNaN x factorFinite, Single.mul_isNaN y factorFinite,
    Bool.not_false, Bool.and_self]

theorem Text.readSingle?_isFinite {text : List Char} {number : Single}
    (read : Text.readSingle? text = some number) : number.isFinite = true :=
  (Option.filter_eq_some_iff.mp read).2

namespace ClipFile

/-- Numbers by which keyframes can be converted. -/
structure Settings.Usable (numbers : Settings) : Prop where
  fpsPositive : 0 < numbers.fps
  fpsBounded : numbers.fps < 2 ^ 32
  speedFinite : numbers.speed.isFinite = true
  speedPositive : 0 < numbers.speed
  scaleFinite : numbers.scale.isFinite = true

/-- What holds of the standard number and of all that can be read holds of the number
in force. -/
theorem lastValue_induction {α : Type} {motive : α → Prop} {settings : List Setting}
    {name : Directive} {read? : List Char → Option α} {standard : α} (begun : motive standard)
    (read : ∀ payload value, read? payload = some value → motive value) :
    motive (lastValue settings name read? standard) := by
  unfold lastValue
  cases last : (settings.filterMap (Setting.value? name read?)).getLast? with
  | none => exact begun
  | some value =>
      obtain ⟨setting, _, given⟩ := List.mem_filterMap.mp (List.mem_of_getLast? last)
      cases setting with
      | switch switch => cases given
      | directive other payload =>
          simp only [Setting.value?, Option.ite_none_right_eq_some] at given
          exact read payload value given.2

/-- Settings leave usable numbers in force where there were such before. -/
theorem Settings.Usable.inForce {standard : Settings} (begun : standard.Usable)
    (settings : List Setting) : (ClipFile.inForce standard settings).Usable := by
  have fps : 0 < (ClipFile.inForce standard settings).fps ∧
      (ClipFile.inForce standard settings).fps < 2 ^ 32 := by
    refine lastValue_induction (motive := fun fps => 0 < fps ∧ fps < 2 ^ 32)
      ⟨begun.fpsPositive, begun.fpsBounded⟩ ?_
    intro payload value read
    obtain ⟨bounded, positive⟩ := Option.filter_eq_some_iff.mp read
    exact ⟨of_decide_eq_true positive, of_decide_eq_true (Option.filter_eq_some_iff.mp bounded).2⟩
  have speed : (ClipFile.inForce standard settings).speed.isFinite = true ∧
      0 < (ClipFile.inForce standard settings).speed := by
    refine lastValue_induction (motive := fun speed : Single => speed.isFinite = true ∧ 0 < speed)
      ⟨begun.speedFinite, begun.speedPositive⟩ ?_
    intro payload value read
    obtain ⟨number, positive⟩ := Option.filter_eq_some_iff.mp read
    exact ⟨Text.readSingle?_isFinite number, of_decide_eq_true positive⟩
  have scale : (ClipFile.inForce standard settings).scale.isFinite = true := by
    refine lastValue_induction (motive := fun scale : Single => scale.isFinite = true)
      begun.scaleFinite ?_
    exact fun payload value => Text.readSingle?_isFinite
  exact ⟨fps.1, fps.2, speed.1, speed.2, scale⟩

theorem Settings.usable_standard : Settings.standard.Usable := by
  have speed : Settings.standard.speed.isFinite = true ∧ 0 < Settings.standard.speed ∧
      Settings.standard.scale.isFinite = true := by decide +kernel
  exact ⟨by decide, by decide, speed.1, speed.2.1, speed.2.2⟩

theorem inForce_usable (settings : List Setting) : (inForce .standard settings).Usable :=
  Settings.usable_standard.inForce settings

namespace Draft

/-- The time of a draft is not negative, and its other numbers are finite. -/
structure Sound (draft : Draft) : Prop where
  time : ∀ time ∈ draft.time, 0 ≤ time
  offsets : ∀ offset ∈ draft.offsets, offset.isFinite = true
  rotation : ∀ rotation ∈ draft.rotation, rotation.isFinite = true
  scale : ∀ scale ∈ draft.scale, scale.isFinite = true

theorem sound_blank : blank.Sound where
  time _ given := nomatch given
  offsets _ given := nomatch given
  rotation _ given := nomatch given
  scale _ given := nomatch given

theorem decimal_isFinite {text : List Char} {number : Single}
    (read : decimal text = .ok number) : number.isFinite = true := by
  unfold decimal at read
  split at read
  next found =>
      cases read
      exact Text.readSingle?_isFinite found
  next => cases read

theorem factors?_isFinite {inside : List Char} {factors : Vec}
    (read : factors? inside = some factors) : factors.isFinite = true := by
  unfold factors? at read
  split at read
  next =>
      obtain ⟨x, xRead, rest⟩ := Option.bind_eq_some_iff.mp read
      obtain ⟨y, yRead, both⟩ := Option.bind_eq_some_iff.mp rest
      cases both
      exact Bool.and_eq_true_iff.mpr
        ⟨Text.readSingle?_isFinite xRead, Text.readSingle?_isFinite yRead⟩
  next => cases read

theorem enterTime_sound {draft next : Draft} {time : Single} (sound : draft.Sound)
    (isNumber : time.isNaN = false) (entered : draft.enterTime time = .ok next) : next.Sound := by
  unfold enterTime at entered
  split at entered
  next => cases entered
  next =>
      split at entered
      next => cases entered
      next notNegative =>
          cases entered
          refine ⟨?_, sound.offsets, sound.rotation, sound.scale⟩
          rintro _ ⟨⟩
          exact Single.le_of_not_lt Single.zero_isNaN isNumber notNegative

theorem seconds_isNaN {settings : Settings} (usable : settings.Usable) {seconds : Single}
    (isNumber : seconds.isNaN = false) : (seconds / settings.speed).isNaN = false :=
  Single.div_isNaN isNumber usable.speedFinite usable.speedPositive

theorem frames_isNaN {settings : Settings} (usable : settings.Usable) (frames : Int) :
    (Single.ofInt frames / Single.ofNat settings.fps).isNaN = false :=
  Single.div_isNaN (Single.ofUnits_isNaN _ _ _) (Single.ofNat_isFinite usable.fpsBounded)
    (Single.ofNat_positive usable.fpsPositive)

theorem enter_sound {settings : Settings} {inHand : Bool} (usable : settings.Usable)
    {draft next : Draft} {token : List Char} (sound : draft.Sound)
    (entered : enter settings inHand draft token = .ok next) : next.Sound := by
  unfold enter at entered
  generalize Token.ofSpelling token = kind at entered
  cases kind with
  | restrictions names =>
      dsimp only at entered
      split at entered
      next => cases entered
      next =>
          obtain ⟨restrictions, _, done⟩ := bind_eq_ok_iff.mp entered
          cases done
          exact ⟨sound.time, sound.offsets, sound.rotation, sound.scale⟩
  | scale inside =>
      dsimp only at entered
      split at entered
      next => cases entered
      next =>
          split at entered
          next read =>
              cases entered
              refine ⟨sound.time, sound.offsets, sound.rotation, ?_⟩
              rintro _ ⟨⟩
              exact factors?_isFinite read
          next => cases entered
  | rotation number =>
      dsimp only at entered
      split at entered
      next => cases entered
      next =>
          obtain ⟨rotation, read, done⟩ := bind_eq_ok_iff.mp entered
          cases done
          refine ⟨sound.time, sound.offsets, ?_, sound.scale⟩
          rintro _ ⟨⟩
          exact decimal_isFinite read
  | offset number =>
      obtain ⟨offset, read, done⟩ := bind_eq_ok_iff.mp entered
      cases done
      refine ⟨sound.time, ?_, sound.rotation, sound.scale⟩
      simp only [List.mem_append, List.mem_singleton]
      rintro _ (earlier | rfl)
      · exact sound.offsets _ earlier
      · exact decimal_isFinite read
  | seconds number =>
      obtain ⟨seconds, read, done⟩ := bind_eq_ok_iff.mp entered
      exact enterTime_sound sound
        (seconds_isNaN usable (Single.isNaN_of_isFinite (decimal_isFinite read))) done
  | frames =>
      dsimp only at entered
      split at entered
      next => exact enterTime_sound sound (seconds_isNaN usable (frames_isNaN usable _)) entered
      next => cases entered
  | word =>
      dsimp only at entered
      split at entered
      next =>
          split at entered
          next => cases entered
          next =>
              split at entered
              next => cases entered
              next =>
                  cases entered
                  exact ⟨sound.time, sound.offsets, sound.rotation, sound.scale⟩
      next => cases entered
  | other => cases entered

theorem ofLine_sound {settings : Settings} {inHand : Bool} (usable : settings.Usable)
    {line : List Char} {draft : Draft} (read : ofLine settings inHand line = .ok draft) :
    draft.Sound := by
  unfold ofLine at read
  split at read
  next => cases read
  next tokens _ =>
      exact foldlM_induction (fun _ _ _ sound entered => enter_sound usable sound entered)
        sound_blank read

theorem position_isNumber {settings : Settings} (usable : settings.Usable)
    {offsets : List Single} (finite : ∀ offset ∈ offsets, offset.isFinite = true)
    {place : Option Vec} (read : position settings offsets = .ok place) :
    ∀ position ∈ place, position.isNumber = true := by
  unfold position at read
  split at read
  next =>
      cases read
      exact fun _ given => nomatch given
  next x y =>
      cases read
      rintro _ ⟨⟩
      have both : (Vec.mk x y).isFinite = true :=
        Bool.and_eq_true_iff.mpr ⟨finite x (by simp), finite y (by simp)⟩
      exact Vec.isNumber_scaledBy both usable.scaleFinite
  next => cases read

end Draft

/-- The time of a keyframe is not negative, its position has no NaN, and its other
numbers are finite. -/
structure Keyframe.Sound (keyframe : Keyframe) : Prop where
  time : 0 ≤ keyframe.time
  position : ∀ position ∈ keyframe.position, position.isNumber = true
  rotation : ∀ rotation ∈ keyframe.rotation, rotation.isFinite = true
  scale : ∀ scale ∈ keyframe.scale, scale.isFinite = true

theorem Draft.keyframe_sound {settings : Settings} (usable : settings.Usable) {draft : Draft}
    (sound : draft.Sound) {keyframe : Keyframe}
    (complete : draft.keyframe settings = .ok keyframe) : keyframe.Sound := by
  unfold Draft.keyframe at complete
  split at complete
  next => cases complete
  next time timed =>
      obtain ⟨place, read, done⟩ := bind_eq_ok_iff.mp complete
      cases done
      exact ⟨sound.time time timed, Draft.position_isNumber usable sound.offsets read,
        sound.rotation, sound.scale⟩

theorem note?_sound {settings : Settings} {inHand : Bool} (usable : settings.Usable)
    {text : List Char} {note : Note} (noted : note? settings inHand text = some note) :
    note.keyframe.Sound := by
  obtain ⟨draft, read, complete⟩ := bind_eq_ok_iff.mp (toOption_eq_some_iff.mp noted)
  obtain ⟨keyframe, converted, done⟩ := bind_eq_ok_iff.mp complete
  cases done
  exact Draft.keyframe_sound usable (Draft.ofLine_sound usable read) converted

end ClipFile

end LimbAnimation
