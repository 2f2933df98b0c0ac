import LimbAnimation.ClipFile.Reader
import LimbAnimation.Proofs.ClipFile.Cut
import LimbAnimation.Proofs.ClipFile.Spelling
import LimbAnimation.Proofs.Outcome

/-!
# Keyframe lines

A keyframe line is accepted exactly when it is cut into tokens of which each one gives a
part of a keyframe, and these parts make up a keyframe.  The keyframe is added to the open
block, and what it restricts is entered at its time.
-/

namespace LimbAnimation.ClipFile

/-- What a token gives to a keyframe. -/
inductive Part where
  | restrictions (set : Restrictions)
  | scale (factors : Vec)
  | rotation (degrees : Single)
  | offset (pixels : Single)
  | time (seconds : Single)
  | shape (shape : HandShape)

/-- The tokens of keyframe lines and what they give. -/
inductive Gives (settings : Settings) (inHand : Bool) : List Char → Part → Prop where
  | restrictions {names : List Char} {sets : List Restrictions} :
      List.Forall₂ (fun name set => Restrictions.ofFileName? name = some set)
        (Text.words names) sets →
      Gives settings inHand (grouped "constraints" names)
        (.restrictions (sets.foldl (· ∪ ·) .empty))
  | scale {inside x y : List Char} {factors : Vec} :
      ((Text.pieces (· == ',') inside).map Text.trim).filter (!·.isEmpty) = [x, y] →
      Text.readSingle? x = some factors.x → Text.readSingle? y = some factors.y →
      Gives settings inHand (grouped "scale" inside) (.scale factors)
  | rotation {number : List Char} {degrees : Single} :
      Text.readSingle? number = some degrees →
      Gives settings inHand (number ++ "deg".toList) (.rotation degrees)
  | offset {number : List Char} {pixels : Single} :
      Text.readSingle? number = some pixels →
      Gives settings inHand (number ++ "px".toList) (.offset pixels)
  | seconds {number : List Char} {seconds : Single} :
      Text.readSingle? number = some seconds →
      Gives settings inHand (number ++ "s".toList) (.time (seconds / settings.speed))
  | frames {token : List Char} {frames : Int} :
      Text.readInt? token = some frames → -2 ^ (63 : Nat) ≤ frames → frames < 2 ^ (63 : Nat) →
      Gives settings inHand token
        (.time (Single.ofInt frames / Single.ofNat settings.fps / settings.speed))
  | shape {token : List Char} {shape : HandShape} :
      HandShape.ofName? token = some shape → inHand = true →
      Gives settings inHand token (.shape shape)

namespace Part

@[simp] def restrictions? : Part → Option Restrictions
  | .restrictions set => some set
  | _ => none

@[simp] def scale? : Part → Option Vec
  | .scale factors => some factors
  | _ => none

@[simp] def rotation? : Part → Option Single
  | .rotation degrees => some degrees
  | _ => none

@[simp] def offset? : Part → Option Single
  | .offset pixels => some pixels
  | _ => none

@[simp] def time? : Part → Option Single
  | .time seconds => some seconds
  | _ => none

@[simp] def shape? : Part → Option HandShape
  | .shape hand => some hand
  | _ => none

end Part

/-- Parts that can stand in one line: all but offsets stand there once at most, and the
time is not negative. -/
@[mk_iff]
structure Compatible (parts : List Part) : Prop where
  restrictions : (parts.filterMap Part.restrictions?).length ≤ 1
  scale : (parts.filterMap Part.scale?).length ≤ 1
  rotation : (parts.filterMap Part.rotation?).length ≤ 1
  time : (parts.filterMap Part.time?).length ≤ 1
  shape : (parts.filterMap Part.shape?).length ≤ 1
  notNegative : ∀ time ∈ parts.filterMap Part.time?, ¬ time < 0

/-- Parts that make up what happens at a time. -/
structure Complete (parts : List Part) (time : Single) : Prop where
  compatible : Compatible parts
  time : parts.filterMap Part.time? = [time]
  offsets : (parts.filterMap Part.offset?).length = 0 ∨ (parts.filterMap Part.offset?).length = 2

theorem Compatible.of_append {front back : List Part} (compatible : Compatible (front ++ back)) :
    Compatible front := by
  have fewer : ∀ {α : Type} (channel? : Part → Option α),
      (front.filterMap channel?).length ≤ ((front ++ back).filterMap channel?).length := by
    intro α channel?
    rw [List.filterMap_append, List.length_append]
    omega
  refine ⟨Nat.le_trans (fewer _) compatible.restrictions, Nat.le_trans (fewer _) compatible.scale,
    Nat.le_trans (fewer _) compatible.rotation, Nat.le_trans (fewer _) compatible.time,
    Nat.le_trans (fewer _) compatible.shape, ?_⟩
  intro time member
  apply compatible.notNegative
  rw [List.filterMap_append]
  exact List.mem_append_left _ member

/-- The keyframe that parts make up: two offsets, if there are any, are scaled to a
position. -/
def Keyframe.ofParts (settings : Settings) (parts : List Part) (time : Single) : Keyframe where
  time := time
  position :=
    match parts.filterMap Part.offset? with
    | [x, y] => some (Vec.scaledBy ⟨x, y⟩ settings.scale)
    | _ => none
  rotation := (parts.filterMap Part.rotation?).head?
  scale := (parts.filterMap Part.scale?).head?
  shape := (parts.filterMap Part.shape?).head?

namespace Draft

theorem decimal_eq_ok_iff {text : List Char} {number : Single} :
    decimal text = .ok number ↔ Text.readSingle? text = some number := by
  unfold decimal
  split
  next found => rw [found, Option.some.injEq, Except.ok.injEq]
  next missing => simp [missing]

theorem restrictionsOf_eq_ok_iff {names : List Char} {set : Restrictions} :
    restrictionsOf names = .ok set ↔
      ∃ sets, List.Forall₂ (fun name set => Restrictions.ofFileName? name = some set)
        (Text.words names) sets ∧ sets.foldl (· ∪ ·) .empty = set := by
  unfold restrictionsOf
  generalize Restrictions.empty = first
  induction Text.words names generalizing first with
  | nil =>
      constructor
      · intro done
        cases done
        exact ⟨[], .nil, rfl⟩
      · intro given
        obtain ⟨sets, known, union⟩ := given
        cases known
        cases union
        rfl
  | cons name rest ih =>
      rw [List.foldlM_cons, bind_eq_ok_iff]
      constructor
      · intro given
        obtain ⟨next, added, later⟩ := given
        obtain ⟨sets, known, union⟩ := (ih next).mp later
        cases here : Restrictions.ofFileName? name with
        | none => simp [here] at added
        | some own =>
            simp only [here, Except.ok.injEq] at added
            subst next
            exact ⟨own :: sets, .cons here known, union⟩
      · intro given
        obtain ⟨sets, known, union⟩ := given
        cases known with
        | cons here known =>
            refine ⟨_, ?_, (ih _).mpr ⟨_, known, union⟩⟩
            rw [here]

theorem factors?_eq_some_iff {inside : List Char} {factors : Vec} :
    factors? inside = some factors ↔
      ∃ x y, ((Text.pieces (· == ',') inside).map Text.trim).filter (!·.isEmpty) = [x, y] ∧
        Text.readSingle? x = some factors.x ∧ Text.readSingle? y = some factors.y := by
  unfold factors?
  constructor
  · intro given
    split at given
    next x y two =>
        obtain ⟨first, xRead, rest⟩ := Option.bind_eq_some_iff.mp given
        obtain ⟨second, yRead, both⟩ := Option.bind_eq_some_iff.mp rest
        cases both
        exact ⟨x, y, two, xRead, yRead⟩
    next => cases given
  · intro given
    obtain ⟨x, y, two, xRead, yRead⟩ := given
    rw [two]
    dsimp only
    rw [xRead, yRead]
    rfl

theorem frameNumber?_eq_some_iff {token : List Char} {frames : Int} :
    frameNumber? token = some frames ↔
      Text.readInt? token = some frames ∧ -2 ^ (63 : Nat) ≤ frames ∧ frames < 2 ^ (63 : Nat) := by
  rw [frameNumber?, Option.filter_eq_some_iff, decide_eq_true_iff]

/-- The draft with one part more, which refuses what it has been given before. -/
def taking (draft : Draft) : Part → Except Fault Draft
  | .restrictions set =>
    if draft.restrictions.isSome then .error (.duplicateToken "constraints")
    else .ok { draft with restrictions := some set }
  | .scale factors =>
    if draft.scale.isSome then .error (.duplicateToken "scale")
    else .ok { draft with scale := some factors }
  | .rotation degrees =>
    if draft.rotation.isSome then .error .duplicateRotation
    else .ok { draft with rotation := some degrees }
  | .offset pixels => .ok { draft with offsets := draft.offsets ++ [pixels] }
  | .time seconds => draft.enterTime seconds
  | .shape shape =>
    if draft.shape.isSome then .error (.duplicateToken "hand look")
    else .ok { draft with shape := some shape }

variable {settings : Settings} {inHand : Bool} {draft next : Draft} {token : List Char}

theorem gives_of_enter (entered : enter settings inHand draft token = .ok next) :
    ∃ part, Gives settings inHand token part ∧ draft.taking part = .ok next := by
  have spells := Token.spells_ofSpelling token
  unfold enter at entered
  cases kind : Token.ofSpelling token with
  | restrictions names =>
      rw [kind] at spells entered
      dsimp only [Token.Spells] at spells entered
      subst spells
      split at entered
      next => cases entered
      next free =>
          obtain ⟨set, read, done⟩ := bind_eq_ok_iff.mp entered
          obtain ⟨sets, known, union⟩ := restrictionsOf_eq_ok_iff.mp read
          subst union
          exact ⟨_, .restrictions known, (if_neg free).trans done⟩
  | scale inside =>
      rw [kind] at spells entered
      dsimp only [Token.Spells] at spells entered
      subst spells
      split at entered
      next => cases entered
      next free =>
          split at entered
          next factors read =>
              obtain ⟨x, y, two, xRead, yRead⟩ := factors?_eq_some_iff.mp read
              exact ⟨_, .scale two xRead yRead, (if_neg free).trans entered⟩
          next => cases entered
  | rotation number =>
      rw [kind] at spells entered
      dsimp only [Token.Spells] at spells entered
      subst spells
      split at entered
      next => cases entered
      next free =>
          obtain ⟨degrees, read, done⟩ := bind_eq_ok_iff.mp entered
          exact ⟨_, .rotation (decimal_eq_ok_iff.mp read), (if_neg free).trans done⟩
  | offset number =>
      rw [kind] at spells entered
      dsimp only [Token.Spells] at spells entered
      subst spells
      obtain ⟨pixels, read, done⟩ := bind_eq_ok_iff.mp entered
      exact ⟨_, .offset (decimal_eq_ok_iff.mp read), done⟩
  | seconds number =>
      rw [kind] at spells entered
      dsimp only [Token.Spells] at spells entered
      subst spells
      obtain ⟨seconds, read, done⟩ := bind_eq_ok_iff.mp entered
      exact ⟨_, .seconds (decimal_eq_ok_iff.mp read), done⟩
  | frames =>
      rw [kind] at entered
      dsimp only at entered
      split at entered
      next frames read =>
          obtain ⟨number, low, high⟩ := frameNumber?_eq_some_iff.mp read
          exact ⟨_, .frames number low high, entered⟩
      next => cases entered
  | word =>
      rw [kind] at entered
      dsimp only at entered
      split at entered
      next shape known =>
          split at entered
          next => cases entered
          next hand =>
              exact ⟨_, .shape known (by simpa using hand), entered⟩
      next => cases entered
  | other =>
      rw [kind] at entered
      cases entered

theorem enter_of_gives {part : Part} (gives : Gives settings inHand token part)
    (taken : draft.taking part = .ok next) : enter settings inHand draft token = .ok next := by
  cases gives with
  | @restrictions names sets known =>
      rw [enter, Token.ofSpelling_restrictions]
      dsimp only
      unfold taking at taken
      dsimp only at taken
      split at taken
      next => cases taken
      next free =>
          rw [if_neg free, restrictionsOf_eq_ok_iff.mpr ⟨sets, known, rfl⟩]
          exact taken
  | @scale inside x y factors two xRead yRead =>
      rw [enter, Token.ofSpelling_scale]
      dsimp only
      rw [factors?_eq_some_iff.mpr ⟨x, y, two, xRead, yRead⟩]
      exact taken
  | rotation read =>
      rw [enter, Token.ofSpelling_rotation (beginsNumber_of_readSingle? read)]
      dsimp only
      rw [decimal_eq_ok_iff.mpr read]
      exact taken
  | offset read =>
      rw [enter, Token.ofSpelling_offset (beginsNumber_of_readSingle? read)]
      dsimp only
      rw [decimal_eq_ok_iff.mpr read]
      exact taken
  | seconds read =>
      rw [enter, Token.ofSpelling_seconds (beginsNumber_of_readSingle? read)]
      dsimp only
      rw [decimal_eq_ok_iff.mpr read]
      exact taken
  | frames read low high =>
      rw [enter, Token.ofSpelling_frames read]
      dsimp only
      rw [frameNumber?_eq_some_iff.mpr ⟨read, low, high⟩]
      exact taken
  | shape known hand =>
      subst hand
      rw [enter, Token.ofSpelling_word known]
      dsimp only
      rw [known]
      exact taken

/-- A token is entered by taking what it gives. -/
theorem enter_eq_ok_iff :
    enter settings inHand draft token = .ok next ↔
      ∃ part, Gives settings inHand token part ∧ draft.taking part = .ok next := by
  constructor
  · exact gives_of_enter
  · intro given
    obtain ⟨part, gives, taken⟩ := given
    exact enter_of_gives gives taken

/-- The draft that the parts of a line make up. -/
def ofParts (parts : List Part) : Draft where
  time := (parts.filterMap Part.time?).head?
  offsets := parts.filterMap Part.offset?
  rotation := (parts.filterMap Part.rotation?).head?
  scale := (parts.filterMap Part.scale?).head?
  shape := (parts.filterMap Part.shape?).head?
  restrictions := (parts.filterMap Part.restrictions?).head?

/-- A draft takes a part when the part can stand with those that it was made of. -/
theorem taking_eq_ok_iff {parts : List Part} {part : Part} (compatible : Compatible parts) :
    (ofParts parts).taking part = .ok next ↔
      Compatible (parts ++ [part]) ∧ ofParts (parts ++ [part]) = next := by
  have grown : ∀ {α : Type} (channel? : Part → Option α),
      (parts ++ [part]).filterMap channel? =
        parts.filterMap channel? ++ (channel? part).toList := by
    intro α channel?
    cases own : channel? part <;> simp [own]
  obtain ⟨fewRestrictions, fewScales, fewRotations, fewTimes, fewShapes, notNegative⟩ :=
    compatible
  rw [compatible_iff]
  simp only [ofParts, grown]
  generalize parts.filterMap Part.restrictions? = restrictions at *
  generalize parts.filterMap Part.scale? = scales at *
  generalize parts.filterMap Part.rotation? = rotations at *
  generalize parts.filterMap Part.offset? = offsets at *
  generalize parts.filterMap Part.time? = times at *
  generalize parts.filterMap Part.shape? = shapes at *
  have timely := iff_true_intro notNegative
  cases part with
  | restrictions set =>
      cases restrictions with
      | nil => simp [taking, fewScales, fewRotations, fewTimes, fewShapes, timely]
      | cons first rest => simp [taking]
  | scale factors =>
      cases scales with
      | nil => simp [taking, fewRestrictions, fewRotations, fewTimes, fewShapes, timely]
      | cons first rest => simp [taking]
  | rotation degrees =>
      cases rotations with
      | nil => simp [taking, fewRestrictions, fewScales, fewTimes, fewShapes, timely]
      | cons first rest => simp [taking]
  | offset pixels =>
      simp [taking, fewRestrictions, fewScales, fewRotations, fewTimes, fewShapes, timely]
  | time seconds =>
      cases times with
      | nil =>
          by_cases negative : seconds < 0
          · simp [taking, enterTime, negative]
          · simp [taking, enterTime, negative, fewRestrictions, fewScales, fewRotations, fewShapes]
      | cons first rest => simp [taking, enterTime]
  | shape hand =>
      cases shapes with
      | nil => simp [taking, fewRestrictions, fewScales, fewRotations, fewTimes, timely]
      | cons first rest => simp [taking]

/-- The tokens of a line are entered when each one gives a part and the parts can stand
together. -/
theorem foldlM_enter_eq_ok_iff {parts : List Part} (compatible : Compatible parts)
    {tokens : List (List Char)} {draft : Draft} :
    tokens.foldlM (enter settings inHand) (ofParts parts) = .ok draft ↔
      ∃ more, List.Forall₂ (Gives settings inHand) tokens more ∧
        Compatible (parts ++ more) ∧ ofParts (parts ++ more) = draft := by
  induction tokens generalizing parts with
  | nil =>
      constructor
      · intro done
        cases done
        exact ⟨[], .nil, by rwa [List.append_nil], by rw [List.append_nil]⟩
      · intro given
        obtain ⟨more, gives, _, same⟩ := given
        cases gives
        rw [List.append_nil] at same
        subst same
        rfl
  | cons token rest ih =>
      rw [List.foldlM_cons, bind_eq_ok_iff]
      constructor
      · intro given
        obtain ⟨next, entered, later⟩ := given
        obtain ⟨part, here, taken⟩ := enter_eq_ok_iff.mp entered
        obtain ⟨together, same⟩ := (taking_eq_ok_iff compatible).mp taken
        subst same
        obtain ⟨more, gives, compatible, same⟩ := (ih together).mp later
        rw [List.append_assoc, List.singleton_append] at compatible same
        exact ⟨part :: more, .cons here gives, compatible, same⟩
      · intro given
        obtain ⟨more, gives, whole, same⟩ := given
        cases gives with
        | @cons _ part _ more here gives =>
            rw [← List.singleton_append, ← List.append_assoc] at whole same
            have together := whole.of_append
            have taken := (taking_eq_ok_iff compatible).mpr ⟨together, rfl⟩
            exact ⟨ofParts (parts ++ [part]), enter_eq_ok_iff.mpr ⟨part, here, taken⟩,
              (ih together).mpr ⟨more, gives, whole, same⟩⟩

theorem ofLine_eq_ok_iff {line : List Char} {draft : Draft} :
    ofLine settings inHand line = .ok draft ↔
      ∃ tokens parts, Balanced line ∧ Cuts line tokens ∧
        List.Forall₂ (Gives settings inHand) tokens parts ∧ Compatible parts ∧
          ofParts parts = draft := by
  have none : Compatible [] := by simp [compatible_iff]
  unfold ofLine
  constructor
  · intro read
    split at read
    next => cases read
    next tokens cut =>
        obtain ⟨parts, gives, compatible, same⟩ := (foldlM_enter_eq_ok_iff none).mp read
        have balanced := cut?_isSome_iff.mp (Option.isSome_of_eq_some cut)
        exact ⟨tokens, parts, balanced, cut?_eq_some_iff.mp cut, gives, compatible, same⟩
  · intro given
    obtain ⟨tokens, parts, _, cuts, gives, compatible, same⟩ := given
    rw [cut?_eq_some_iff.mpr cuts]
    exact (foldlM_enter_eq_ok_iff none).mpr ⟨parts, gives, compatible, same⟩

theorem position_eq_ok_iff {offsets : List Single} {place : Option Vec} :
    position settings offsets = .ok place ↔
      (offsets.length = 0 ∨ offsets.length = 2) ∧
        place = match offsets with
          | [x, y] => some (Vec.scaledBy ⟨x, y⟩ settings.scale)
          | _ => none := by
  match offsets with
  | [] => simp [position, eq_comm]
  | [_] => simp [position]
  | [_, _] => simp [position, eq_comm]
  | _ :: _ :: _ :: _ => simp [position]

/-- Parts that can stand together are a keyframe when there is a time among them and there
are two offsets or none. -/
theorem keyframe_ofParts {parts : List Part} (compatible : Compatible parts)
    {keyframe : Keyframe} :
    (ofParts parts).keyframe settings = .ok keyframe ↔
      ∃ time, Complete parts time ∧ keyframe = .ofParts settings parts time := by
  cases times : parts.filterMap Part.time? with
  | nil =>
      have missing : (ofParts parts).time = none := by rw [ofParts, times, List.head?_nil]
      rw [Draft.keyframe, missing]
      constructor
      · intro read
        cases read
      · intro given
        obtain ⟨time, complete, _⟩ := given
        cases times.symm.trans complete.time
  | cons time rest =>
      have only : rest = [] := by
        have few := compatible.time
        rw [times, List.length_cons] at few
        exact List.eq_nil_of_length_eq_zero (by omega)
      subst only
      have found : (ofParts parts).time = some time := by rw [ofParts, times, List.head?_cons]
      rw [Draft.keyframe, found]
      dsimp only
      rw [bind_eq_ok_iff]
      constructor
      · intro given
        obtain ⟨place, read, done⟩ := given
        obtain ⟨offsets, placed⟩ := position_eq_ok_iff.mp read
        subst placed
        cases done
        exact ⟨time, ⟨compatible, times, offsets⟩, rfl⟩
      · intro given
        obtain ⟨other, complete, same⟩ := given
        cases times.symm.trans complete.time
        subst same
        exact ⟨_, position_eq_ok_iff.mpr ⟨complete.offsets, rfl⟩, rfl⟩

theorem entered_ofParts {parts : List Part} (compatible : Compatible parts) (time : Single)
    (timeline : RestrictionTimeline) :
    (match (ofParts parts).restrictions with
      | some restrictions => timeline.add ⟨time, restrictions⟩
      | none => timeline) =
      ⟨timeline.entries ++ (parts.filterMap Part.restrictions?).map (⟨time, ·⟩)⟩ := by
  have few := compatible.restrictions
  rw [ofParts]
  dsimp only
  match sets : parts.filterMap Part.restrictions? with
  | [] => simp
  | [set] => simp [RestrictionTimeline.add]
  | _ :: _ :: _ =>
      rw [sets] at few
      simp at few

end Draft

namespace Reader

/-- The reader after a keyframe of the given parts in its open block. -/
def withParts (reader : Reader) (block : Block) (parts : List Part) (time : Single) : Reader :=
  let keyframe := Keyframe.ofParts reader.settings parts time
  { reader with
    block := some { block with keyframes := block.keyframes ++ [keyframe] }
    restrictions :=
      ⟨reader.restrictions.entries ++ (parts.filterMap Part.restrictions?).map (⟨time, ·⟩)⟩ }

/-- Outside a block a keyframe line is refused; inside one it is accepted exactly when its
tokens give the parts of a keyframe, and then nothing but this keyframe and what it
restricts is added. -/
theorem keyframe_accepts_complete_parts (reader : Reader) (text : List Char) :
    match reader.block with
    | none => reader.keyframe text = .error .keyframeOutsideBlock
    | some block =>
      ∀ next, reader.keyframe text = .ok next ↔
        ∃ tokens parts time, Balanced text ∧ Cuts text tokens ∧
          List.Forall₂ (Gives reader.settings (isHand block.limb)) tokens parts ∧
            Complete parts time ∧ next = reader.withParts block parts time := by
  cases opened : reader.block with
  | none => simp [keyframe, opened]
  | some block =>
      intro next
      unfold keyframe
      rw [opened]
      dsimp only
      rw [bind_eq_ok_iff]
      constructor
      · intro given
        obtain ⟨draft, read, later⟩ := given
        obtain ⟨keyframe, made, done⟩ := bind_eq_ok_iff.mp later
        obtain ⟨tokens, parts, balanced, cuts, gives, compatible, same⟩ :=
          Draft.ofLine_eq_ok_iff.mp read
        subst same
        obtain ⟨time, complete, same⟩ := (Draft.keyframe_ofParts compatible).mp made
        subst same
        refine ⟨tokens, parts, time, balanced, cuts, gives, complete, ?_⟩
        cases done
        rw [withParts, ← Draft.entered_ofParts compatible time reader.restrictions]
        rfl
      · intro given
        obtain ⟨tokens, parts, time, balanced, cuts, gives, complete, same⟩ := given
        have read := Draft.ofLine_eq_ok_iff.mpr
          ⟨tokens, parts, balanced, cuts, gives, complete.compatible, rfl⟩
        have made : (Draft.ofParts parts).keyframe reader.settings =
            .ok (.ofParts reader.settings parts time) :=
          (Draft.keyframe_ofParts complete.compatible).mpr ⟨time, complete, rfl⟩
        refine ⟨_, read, bind_eq_ok_iff.mpr ⟨_, made, ?_⟩⟩
        rw [same, withParts, ← Draft.entered_ofParts complete.compatible time reader.restrictions]
        rfl

end Reader

end LimbAnimation.ClipFile
