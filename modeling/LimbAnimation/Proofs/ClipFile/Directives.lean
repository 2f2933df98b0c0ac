import LimbAnimation.Proofs.ClipFile.Conversion
import LimbAnimation.Proofs.ClipFile.Layout

/-!
# What directives govern

A directive before the first header sets one number, and the others stay.  So a scale only
changes where keyframes are placed, and a number of frames in a second changes nothing
where all times are in seconds.
-/

namespace LimbAnimation.ClipFile

/-- Whether the first word of a text is that of a directive. -/
def beginsWith (directive : Directive) (text : List Char) : Bool :=
  decide ((Text.words text).head? = some directive.word.toList)

/-- The second word of a text; empty when there is none. -/
def payload (text : List Char) : List Char := (Text.words text).tail.head?.getD []

/-- Whether a line is a directive of the given name. -/
def Line.isOf (name : Directive) : Line → Bool
  | .directive other _ => decide (other = name)
  | _ => false

theorem Directive.word_injective {directive other : Directive}
    (same : directive.word.toList = other.word.toList) : directive = other :=
  Option.some.inj ((ofWord?_eq_some_iff.mpr rfl).symm.trans (ofWord?_eq_some_iff.mpr same))

theorem Spells.beginsWith_eq {text : List Char} {line : Line} (spells : Spells text line)
    (name : Directive) : beginsWith name text = line.isOf name := by
  cases spells with
  | directive directive words =>
      rw [beginsWith, words, Line.isOf, List.head?_cons, decide_eq_decide, Option.some.injEq]
      exact ⟨Directive.word_injective, fun same => same ▸ rfl⟩
  | header header => cases header <;> cases name <;> decide
  | switch switch => cases switch <;> cases name <;> decide
  | aim => cases name <;> decide
  | keyframe noDirective =>
      refine decide_eq_false fun first => ?_
      obtain ⟨more, words⟩ := List.head?_eq_some_iff.mp first
      exact noDirective name more words

theorem spells_of_beginsWith {name : Directive} {text : List Char}
    (begins : beginsWith name text = true) : Spells text (.directive name (payload text)) := by
  obtain ⟨more, words⟩ := List.head?_eq_some_iff.mp (of_decide_eq_true begins)
  rw [payload, words]
  exact .directive name words

/-- The directives of one name left out. -/
def others (name : Directive) (settings : List Setting) : List Setting :=
  settings.filter fun setting => !setting.line.isOf name

theorem others_spelled {preamble : List (List Char)} {settings : List Setting}
    (spelled : List.Forall₂ Spells preamble (settings.map Setting.line)) (name : Directive) :
    List.Forall₂ Spells (preamble.filter fun text => !beginsWith name text)
      ((others name settings).map Setting.line) := by
  have alike : ∀ ⦃text : List Char⦄ ⦃line : Line⦄, Spells text line →
      ((!beginsWith name text) = true ↔ (!line.isOf name) = true) := by
    intro text line spells
    rw [spells.beginsWith_eq name]
  rw [others, ← Function.comp_def (fun line : Line => !line.isOf name), ← List.filter_map]
  exact List.rel_filter alike spelled

section Values

variable {α : Type} {settings settings' : List Setting} {name changed : Directive}
  {read? : List Char → Option α}

theorem filterMap_others (other : name ≠ changed) :
    (others changed settings).filterMap (Setting.value? name read?) =
      settings.filterMap (Setting.value? name read?) := by
  rw [others, List.filterMap_filter]
  refine List.filterMap_congr fun setting _ => ?_
  cases setting with
  | switch => rfl
  | directive directive payload =>
      by_cases isChanged : directive = changed
      · have otherName : directive ≠ name := fun same => other (same.symm.trans isChanged)
        simp [Setting.line, Line.isOf, Setting.value?, isChanged, isChanged ▸ otherName]
      · simp [Setting.line, Line.isOf, isChanged]

theorem values_of_none (none : ∀ setting ∈ settings, setting.line.isOf name = false) :
    settings.filterMap (Setting.value? name read?) = [] := by
  refine List.filterMap_eq_nil_iff.mpr fun setting member => ?_
  cases setting with
  | switch => rfl
  | directive directive payload => exact if_neg (of_decide_eq_false (none _ member))

/-- A number that a directive does not set depends on the others only. -/
theorem lastValue_of_others (other : name ≠ changed)
    (same : others changed settings = others changed settings') (standard : α) :
    lastValue settings name read? standard = lastValue settings' name read? standard := by
  rw [lastValue, lastValue, ← filterMap_others other, same, filterMap_others other]

theorem lastValue_of_none (none : ∀ setting ∈ settings, setting.line.isOf name = false)
    (standard : α) : lastValue settings name read? standard = standard := by
  rw [lastValue, values_of_none none]
  rfl

/-- Where a directive stands alone, it does not matter where it stands. -/
theorem lastValue_of_alone {front back : List Setting} {payload : List Char} {value : α}
    (none : ∀ setting ∈ front ++ back, setting.line.isOf name = false)
    (read : read? payload = some value) (standard : α) :
    lastValue (front ++ .directive name payload :: back) name read? standard = value := by
  rw [List.forall_mem_append] at none
  have here : Setting.value? name read? (.directive name payload) = some value := by
    rw [Setting.value?, if_pos rfl, read]
  rw [lastValue, List.filterMap_append, List.filterMap_cons_some here, values_of_none none.1,
    values_of_none none.2]
  rfl

end Values

/-- The same settings but for directives of one name. -/
def SameBut (name : Directive) (settings settings' : List Setting) : Prop :=
  others name settings = others name settings'

namespace SameBut

variable {name : Directive} {settings settings' : List Setting}

theorem mem_iff (same : SameBut name settings settings') {setting : Setting}
    (other : setting.line.isOf name = false) : setting ∈ settings ↔ setting ∈ settings' := by
  have kept : ∀ settings : List Setting, setting ∈ others name settings ↔ setting ∈ settings := by
    intro settings
    simp [others, other]
  rw [← kept, same, kept]

theorem inForce_of_scale (same : SameBut .scale settings settings') (standard : Settings) :
    inForce standard settings' =
      { inForce standard settings with scale := (inForce standard settings').scale } := by
  simp only [inForce]
  rw [lastValue_of_others (by decide : Directive.fps ≠ .scale) same,
    lastValue_of_others (by decide : Directive.speed ≠ .scale) same]

theorem inForce_of_fps (same : SameBut .fps settings settings') (standard : Settings) :
    inForce standard settings' =
      { inForce standard settings with fps := (inForce standard settings').fps } := by
  simp only [inForce]
  rw [lastValue_of_others (by decide : Directive.speed ≠ .fps) same,
    lastValue_of_others (by decide : Directive.scale ≠ .fps) same]

end SameBut

/-- One line more, which sets the scale. -/
inductive ScaleInserted (factor : Single) : List (List Char) → List (List Char) → Prop where
  | line {before behind : List (List Char)} {text : List Char} :
      beginsWith .scale text = true → Text.readSingle? (payload text) = some factor →
      ScaleInserted factor (before ++ behind) (before ++ text :: behind)

/-- Other lines that set the number of frames in a second, all of them valid. -/
structure FpsChanged (preamble other : List (List Char)) : Prop where
  others : (preamble.filter fun text => !beginsWith .fps text) =
    other.filter fun text => !beginsWith .fps text
  valid : ∀ text ∈ other, beginsWith .fps text = true → (Reader.fps? (payload text)).isSome = true

instance (preamble other : List (List Char)) : Decidable (FpsChanged preamble other) :=
  decidable_of_iff (_ ∧ _)
    ⟨fun ⟨others, valid⟩ => ⟨others, valid⟩, fun ⟨others, valid⟩ => ⟨others, valid⟩⟩

section Preambles

variable {preamble other : List (List Char)} {settings : List Setting}

theorem settings_of_scaleInserted {factor : Single} (inserted : ScaleInserted factor preamble other)
    (spelled : List.Forall₂ Spells preamble (settings.map Setting.line)) :
    ∃ front back payload, settings = front ++ back ∧ Text.readSingle? payload = some factor ∧
      List.Forall₂ Spells other
        ((front ++ .directive .scale payload :: back).map Setting.line) := by
  obtain ⟨here, read⟩ := inserted
  rw [spelled_iff, List.map_append] at spelled
  obtain ⟨front, back, rfl, frontSame, backSame⟩ := List.map_eq_append_iff.mp spelled.symm
  refine ⟨front, back, _, rfl, read, spelled_iff.mpr ?_⟩
  rw [List.map_append, List.map_append, List.map_cons, List.map_cons, frontSame, backSame,
    spells_iff.mp (spells_of_beginsWith here)]
  rfl

theorem exists_settings (each : ∀ text ∈ other, ∃ setting : Setting, Spells text setting.line) :
    ∃ settings : List Setting, List.Forall₂ Spells other (settings.map Setting.line) := by
  induction other with
  | nil => exact ⟨[], .nil⟩
  | cons text rest ih =>
      obtain ⟨here, later⟩ := List.forall_mem_cons.mp each
      obtain ⟨setting, spells⟩ := here
      obtain ⟨settings, spelled⟩ := ih later
      exact ⟨setting :: settings, .cons spells spelled⟩

theorem exists_setting_of_mem {text : List Char}
    (spelled : List.Forall₂ Spells preamble (settings.map Setting.line))
    (member : text ∈ preamble) : ∃ setting ∈ settings, Spells text setting.line := by
  have inLines : Line.ofText text ∈ settings.map Setting.line :=
    spelled_iff.mp spelled ▸ List.mem_map_of_mem member
  obtain ⟨setting, own, same⟩ := List.mem_map.mp inLines
  exact ⟨setting, own, spells_iff.mpr same.symm⟩

theorem exists_text_of_mem {setting : Setting}
    (spelled : List.Forall₂ Spells preamble (settings.map Setting.line))
    (member : setting ∈ settings) : ∃ text ∈ preamble, Spells text setting.line := by
  have inLines : setting.line ∈ preamble.map Line.ofText :=
    spelled_iff.mp spelled ▸ List.mem_map_of_mem member
  obtain ⟨text, inside, same⟩ := List.mem_map.mp inLines
  exact ⟨text, inside, spells_iff.mpr same⟩

theorem settings_of_fpsChanged (changed : FpsChanged preamble other)
    (spelled : List.Forall₂ Spells preamble (settings.map Setting.line)) :
    ∃ settings', List.Forall₂ Spells other (settings'.map Setting.line) ∧
      SameBut .fps settings settings' ∧
        ∀ setting ∈ settings', setting.line.isOf .fps = true → setting.Readable := by
  have each : ∀ text ∈ other, ∃ setting : Setting, Spells text setting.line := by
    intro text member
    cases begins : beginsWith .fps text with
    | true =>
        exact ⟨.directive .fps (payload text), spells_of_beginsWith begins⟩
    | false =>
        have kept : text ∈ preamble.filter fun text => !beginsWith .fps text := by
          rw [changed.others, List.mem_filter, begins]
          exact ⟨member, rfl⟩
        obtain ⟨setting, _, spells⟩ := exists_setting_of_mem spelled (List.mem_filter.mp kept).1
        exact ⟨setting, spells⟩
  obtain ⟨settings', spelled'⟩ := exists_settings each
  refine ⟨settings', spelled', ?_, ?_⟩
  · have own := spelled_iff.mp (others_spelled spelled .fps)
    have others := spelled_iff.mp (others_spelled spelled' .fps)
    rw [changed.others, others] at own
    exact (List.map_injective_iff.mpr (fun _ _ => Setting.line_injective) own).symm
  · intro setting member isFps
    cases setting with
    | switch => cases isFps
    | directive directive payload =>
        obtain rfl := of_decide_eq_true isFps
        obtain ⟨text, inside, spells⟩ := exists_text_of_mem spelled' member
        have begins : beginsWith .fps text = true := (spells.beginsWith_eq .fps).trans isFps
        have same : Line.directive .fps (ClipFile.payload text) = .directive .fps payload :=
          (spells_iff.mp (spells_of_beginsWith begins)).symm.trans (spells_iff.mp spells)
        obtain ⟨_, rfl⟩ := Line.directive.inj same
        exact changed.valid text inside begins

end Preambles

def Line.isKeyframe : Line → Bool
  | .keyframe _ => true
  | _ => false

/-- All keyframes among the lines of a block give their time in seconds. -/
def BlockTimedInSeconds (block : List (List Char)) : Prop :=
  ∀ text ∈ Reader.laterSignificant block, (Line.ofText text).isKeyframe = true →
    timedInSeconds text = true

instance : DecidablePred BlockTimedInSeconds := fun _ => inferInstanceAs (Decidable (∀ _ ∈ _, _))

theorem timedInSeconds_of_renders {blocks : List (List (List Char))} {passages : List Passage}
    (timed : ∀ block ∈ blocks, BlockTimedInSeconds block)
    (renders : List.Forall₂ Renders blocks passages) {passage : Passage}
    (member : passage ∈ passages) {text : List Char} (inside : .keyframe text ∈ passage.entries) :
    timedInSeconds text = true := by
  have inBlocks : passage.lines ∈ blocks.map blockLines :=
    renders_all_iff.mp renders ▸ List.mem_map_of_mem member
  obtain ⟨block, own, same⟩ := List.mem_map.mp inBlocks
  have inLines : Line.keyframe text ∈ blockLines block :=
    same ▸ List.mem_cons_of_mem _ (List.mem_map_of_mem inside)
  obtain ⟨line, inBlock, taken⟩ := List.mem_map.mp inLines
  obtain rfl : line = text := by
    have spells := spells_iff.mpr taken
    cases spells
    rfl
  exact timed block own line inBlock (congrArg Line.isKeyframe taken)

namespace Sheet

variable {passages : List Passage}

theorem movedTo_of_scale {front back : List Setting} {payload : List Char} {factor : Single}
    (unscaled : ∀ setting ∈ front ++ back, setting.line.isOf .scale = false)
    (read : Text.readSingle? payload = some factor) :
    MovedTo (Vec.scaledBy · factor) ⟨front ++ back, passages⟩
      ⟨front ++ .directive .scale payload :: back, passages⟩ := by
  have same : SameBut .scale (front ++ back) (front ++ .directive .scale payload :: back) := by
    simp [SameBut, others, Setting.line, Line.isOf]
  have one : (inForce .standard (front ++ back)).scale = 1 := lastValue_of_none unscaled _
  have scale : (inForce .standard (front ++ .directive .scale payload :: back)).scale = factor :=
    lastValue_of_alone unscaled read _
  refine ⟨rfl, fun switch => (same.mem_iff rfl).symm, fun passage _ text _ => ?_⟩
  rw [numbers, same.inForce_of_scale, scale]
  exact note?_rescaled (inForce_usable _) one factor passage.inHand text

theorem movedTo_of_fps {settings settings' : List Setting}
    (same : SameBut .fps settings settings') (proper : WellFormed ⟨settings, passages⟩)
    (timed : ∀ passage ∈ passages, ∀ text, .keyframe text ∈ passage.entries →
      timedInSeconds text = true) :
    MovedTo id ⟨settings, passages⟩ ⟨settings', passages⟩ := by
  refine ⟨rfl, fun switch => (same.mem_iff rfl).symm, fun passage member text inside => ?_⟩
  have readable := proper.passages passage member text inside
  obtain ⟨note, noted⟩ := Option.isSome_iff_exists.mp readable
  rw [noted, Option.map_some, Note.moved_id, numbers, same.inForce_of_fps]
  exact note?_of_timedInSeconds (timed passage member text inside) _ noted

theorem readClip_of_movedTo {key : ClipKey} {sheet other : Sheet} {content : Bytes}
    {move : Vec → Vec} (moved : sheet.MovedTo move other) (proper : sheet.WellFormed)
    (readable : ∀ setting ∈ other.settings, setting.Readable) (written : other.Written content) :
    readClip key content = .ok ((sheet.clip key).moved move) :=
  readClip_eq_ok_iff.mpr
    ⟨other, written, moved.wellFormed proper readable, (moved.clip key).symm⟩

end Sheet

/-- A scale that is set in a file without one multiplies the values of translation keys by its
factor, and nothing else changes.  If all times are in seconds, other numbers of frames in a
second change nothing. -/
theorem directives_govern_only_their_numbers {key : ClipKey} {content other : Bytes} {clip : Clip}
    {layout otherLayout : Layout} (read : readClip key content = .ok clip)
    (isOf : layout.IsOf content) (proper : layout.Proper) (otherIsOf : otherLayout.IsOf other)
    (otherProper : otherLayout.Proper) (blocks : otherLayout.blocks = layout.blocks) :
    ((∀ text ∈ layout.preamble, beginsWith .scale text = false) →
        ∀ factor, ScaleInserted factor layout.preamble otherLayout.preamble →
          readClip key other = .ok (clip.moved (Vec.scaledBy · factor))) ∧
      ((∀ block ∈ layout.blocks, BlockTimedInSeconds block) →
        FpsChanged layout.preamble otherLayout.preamble → readClip key other = .ok clip) := by
  obtain ⟨⟨settings, passages⟩, written, wellFormed, rfl⟩ := readClip_eq_ok_iff.mp read
  obtain ⟨spelled, renders⟩ := (isOf.written_iff proper).mp written
  have otherWritten : ∀ settings' : List Setting,
      List.Forall₂ Spells otherLayout.preamble (settings'.map Setting.line) →
        Sheet.Written other ⟨settings', passages⟩ := fun settings' spelled' =>
    (otherIsOf.written_iff otherProper).mpr ⟨spelled', blocks ▸ renders⟩
  constructor
  · intro unscaled factor inserted
    obtain ⟨front, back, payload, rfl, factorRead, spelled'⟩ :=
      settings_of_scaleInserted inserted spelled
    have unscaledSettings : ∀ setting ∈ front ++ back, setting.line.isOf .scale = false := by
      intro setting member
      obtain ⟨text, inside, spells⟩ := exists_text_of_mem spelled member
      rw [← spells.beginsWith_eq]
      exact unscaled text inside
    refine Sheet.readClip_of_movedTo (Sheet.movedTo_of_scale unscaledSettings factorRead) wellFormed
      ?_ (otherWritten _ spelled')
    intro setting member
    rcases List.mem_append.mp member with before | behind
    · exact wellFormed.settings setting (List.mem_append_left _ before)
    · rcases List.mem_cons.mp behind with rfl | behind
      · exact Option.isSome_of_eq_some factorRead
      · exact wellFormed.settings setting (List.mem_append_right _ behind)
  · intro timed changed
    obtain ⟨settings', spelled', same, valid⟩ := settings_of_fpsChanged changed spelled
    have moved := Sheet.movedTo_of_fps same wellFormed fun passage member text inside =>
      timedInSeconds_of_renders timed renders member inside
    rw [← Clip.moved_id (Sheet.clip key ⟨settings, passages⟩)]
    refine Sheet.readClip_of_movedTo moved wellFormed ?_ (otherWritten _ spelled')
    intro setting member
    cases isFps : setting.line.isOf .fps with
    | true => exact valid setting member isFps
    | false => exact wellFormed.settings setting ((same.mem_iff isFps).mpr member)

/-- A file with a zero of each sign, with a scale of one half and with other numbers of frames. -/
theorem directives_govern_only_their_numbers_of_leap :
    let key : ClipKey := ⟨"leap", "guard"⟩
    let blocks := [["BODY", "0s -0px 3px scale(2, 4) constraints(PreventWalking)", "-10deg 1s"],
      ["HAND", "# palm", ".5s 0px .1px open"]].map (List.map String.toList)
    let layout : Layout := ⟨["1.0", "fps 10", "speed 2"].map String.toList, blocks⟩
    let scaled : Layout := ⟨["1.0", "fps 10", "scale .5", "speed 2"].map String.toList, blocks⟩
    let hurried : Layout := ⟨["1.0", "speed 2", "fps 30", "fps 60"].map String.toList, blocks⟩
    let entries := "BODY\n0s -0px 3px scale(2, 4) constraints(PreventWalking)\n-10deg 1s\n" ++
      "HAND\n# palm\n.5s 0px .1px open"
    let content := ("1.0\nfps 10\nspeed 2\n" ++ entries).toUTF8.data.toList
    let scaledContent := ("1.0\nfps 10\nscale .5\nspeed 2\n" ++ entries).toUTF8.data.toList
    let hurriedContent := ("1.0\nspeed 2\nfps 30\nfps 60\n" ++ entries).toUTF8.data.toList
    layout.IsOf content ∧ scaled.IsOf scaledContent ∧ hurried.IsOf hurriedContent ∧
      ∃ clip, readClip key content = .ok clip ∧
        readClip key scaledContent = .ok (clip.moved (Vec.scaledBy · Single.half)) ∧
        readClip key hurriedContent = .ok clip := by
  intro key blocks layout scaled hurried entries content scaledContent hurriedContent
  have files : layout.IsOf content ∧ scaled.IsOf scaledContent ∧ hurried.IsOf hurriedContent ∧
      (readClip key content).toOption.isSome = true := by decide +kernel
  have layouts : layout.Proper ∧ scaled.Proper ∧ hurried.Proper := by decide +kernel
  have preambles : (∀ text ∈ layout.preamble, beginsWith .scale text = false) ∧
      beginsWith .scale "scale .5".toList = true ∧
      Text.readSingle? (payload "scale .5".toList) = some Single.half ∧
      FpsChanged layout.preamble hurried.preamble ∧
      ∀ block ∈ layout.blocks, BlockTimedInSeconds block := by decide +kernel
  obtain ⟨isOf, scaledIsOf, hurriedIsOf, readable⟩ := files
  obtain ⟨proper, scaledProper, hurriedProper⟩ := layouts
  obtain ⟨unscaled, isScale, factor, changed, timed⟩ := preambles
  obtain ⟨clip, found⟩ := Option.isSome_iff_exists.mp readable
  have read := toOption_eq_some_iff.mp found
  have inserted : ScaleInserted Single.half layout.preamble scaled.preamble :=
    @ScaleInserted.line _ ["fps 10".toList] ["speed 2".toList] _ isScale factor
  refine ⟨isOf, scaledIsOf, hurriedIsOf, clip, read, ?_, ?_⟩
  · exact (directives_govern_only_their_numbers read isOf proper scaledIsOf scaledProper rfl).1
      unscaled Single.half inserted
  · exact (directives_govern_only_their_numbers read isOf proper hurriedIsOf hurriedProper rfl).2
      timed changed

end LimbAnimation.ClipFile
