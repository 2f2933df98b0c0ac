import LimbAnimation.ClipFile.Keyframe
import LimbAnimation.Proofs.Text.Affixes
import LimbAnimation.Proofs.Text.Numeral
import LimbAnimation.Proofs.Text.Pieces
import Mathlib.Data.List.Basic

/-!
# Spellings of tokens

The forms that a token of a keyframe line is tried against overlap, but the spellings that
can be read do not: they are told apart by their first and their last characters.
-/

namespace LimbAnimation

namespace HandShape

theorem isAlpha_of_toLower {character : Char} (lower : character.toLower.isLower = true) :
    character.isAlpha = true := by
  apply Bool.or_eq_true_iff.mpr
  cases upper : character.isUpper with
  | true => exact .inl rfl
  | false =>
      have outside : ¬ (character.val ≥ 'A'.val ∧ character.val ≤ 'Z'.val) := by
        intro inside
        have isUpper : character.isUpper = true := decide_eq_true inside
        cases upper.symm.trans isUpper
      have unchanged : character.toLower = character := dif_neg outside
      rw [unchanged] at lower
      exact .inr lower

/-- The names of hand shapes consist of letters. -/
theorem isAlpha_of_ofName? {name : List Char} {shape : HandShape}
    (known : ofName? name = some shape) :
    name ≠ [] ∧ ∀ character ∈ name, character.isAlpha = true := by
  have letters : shape.name.toList ≠ [] ∧
      ∀ character ∈ shape.name.toList.map Char.toLower, character.isLower = true := by
    cases shape <;> decide +kernel
  rw [ofName?] at known
  have found := List.find?_some known
  have same : shape.name.toList.map Char.toLower = name.map Char.toLower := eq_of_beq found
  constructor
  · intro none
    rw [none, List.map_nil, List.map_eq_nil_iff] at same
    exact letters.1 same
  · intro character member
    apply isAlpha_of_toLower
    apply letters.2
    rw [same]
    exact List.mem_map_of_mem member

end HandShape

namespace ClipFile

/-- A text in parentheses after a name. -/
def grouped (name : String) (inside : List Char) : List Char :=
  name.toList ++ '(' :: (inside ++ [')'])

theorem groupInside?_eq_some_iff {name : String} {token inside : List Char} :
    groupInside? name token = some inside ↔ token = grouped name inside := by
  constructor
  · intro given
    obtain ⟨rest, named, inner⟩ := Option.bind_eq_some_iff.mp given
    obtain ⟨closed, opens, closes⟩ := Option.bind_eq_some_iff.mp inner
    rw [Text.dropPrefix?_eq_some_iff.mp named, Text.dropPrefix?_eq_some_iff.mp opens,
      Text.dropSuffix?_eq_some_iff.mp closes]
    rfl
  · intro same
    subst same
    have named := Text.dropPrefix?_append name.toList ('(' :: (inside ++ [')']))
    have opens := Text.dropPrefix?_append ['('] (inside ++ [')'])
    have closes := Text.dropSuffix?_append inside [')']
    rw [List.singleton_append] at opens
    rw [groupInside?, grouped, named]
    dsimp only [Option.bind_eq_bind, Option.bind_some]
    rw [opens, Option.bind_some, closes]

theorem groupInside?_eq_none {name : String} {token : List Char}
    (differs : token.head? ≠ name.toList.head?) (named : name.toList ≠ []) :
    groupInside? name token = none := by
  rw [Option.eq_none_iff_forall_ne_some]
  intro inside found
  apply differs
  rw [groupInside?_eq_some_iff.mp found, grouped, List.head?_append_of_ne_nil _ named]

theorem groupInside?_eq_none_of_unclosed {name : String} {token : List Char}
    (unclosed : ')' ∉ token) : groupInside? name token = none := by
  rw [Option.eq_none_iff_forall_ne_some]
  intro inside found
  apply unclosed
  rw [groupInside?_eq_some_iff.mp found, grouped]
  simp

theorem measured?_eq_some_iff {unit : String} {token number : List Char} :
    measured? unit token = some number ↔
      token = number ++ unit.toList ∧ beginsNumber number = true := by
  rw [measured?, Option.filter_eq_some_iff, Text.dropSuffix?_eq_some_iff]

theorem measured?_eq_none {unit : String} {token : List Char}
    (differs : token.getLast? ≠ unit.toList.getLast?) (named : unit.toList ≠ []) :
    measured? unit token = none := by
  rw [Option.eq_none_iff_forall_ne_some]
  intro number found
  apply differs
  rw [(measured?_eq_some_iff.mp found).1, List.getLast?_append_of_ne_nil _ named]

theorem measured?_eq_none_of_head {unit : String} {token : List Char}
    (begins : beginsNumber token = false) : measured? unit token = none := by
  rw [Option.eq_none_iff_forall_ne_some]
  intro number found
  obtain ⟨whole, numeric⟩ := measured?_eq_some_iff.mp found
  cases number with
  | nil => cases numeric
  | cons first number =>
      rw [whole] at begins
      exact absurd (numeric.symm.trans begins) (by decide)

/-- How the tokens of a kind are written. -/
def Token.Spells : Token → List Char → Prop
  | .restrictions names, token => token = grouped "constraints" names
  | .scale factors, token => token = grouped "scale" factors
  | .rotation number, token => token = number ++ "deg".toList
  | .offset number, token => token = number ++ "px".toList
  | .seconds number, token => token = number ++ "s".toList
  | .frames, token => isFrameNumber token = true
  | .word, token => isWord token = true
  | .other, _ => True

theorem Token.spells_ofSpelling (token : List Char) : (ofSpelling token).Spells token := by
  unfold ofSpelling
  split
  next names found => exact groupInside?_eq_some_iff.mp found
  next =>
      split
      next factors found => exact groupInside?_eq_some_iff.mp found
      next =>
          split
          next number found => exact (measured?_eq_some_iff.mp found).1
          next =>
              split
              next number found => exact (measured?_eq_some_iff.mp found).1
              next =>
                  split
                  next number found => exact (measured?_eq_some_iff.mp found).1
                  next =>
                      split
                      next found => exact found
                      next =>
                          split
                          next found => exact found
                          next => trivial

/-- A decimal begins with a digit, a minus sign or a point. -/
theorem beginsNumber_of_readSingle? {text : List Char} {number : Single}
    (read : Text.readSingle? text = some number) : beginsNumber text = true := by
  obtain ⟨decimal, denotes, _⟩ := Option.map_eq_some_iff.mp (Option.filter_eq_some_iff.mp read).1
  cases text with
  | nil => cases denotes
  | cons first rest =>
      by_cases minus : first = '-'
      · subst minus
        rfl
      · by_cases point : first = '.'
        · subst point
          rfl
        · -- What stands before the point is read as digits.
          have other : (first == '.') = false := beq_false_of_ne point
          obtain ⟨part, parts, cut⟩ := Text.exists_pieces_eq_cons (· == '.') rest
          have whole : Text.pieces (· == '.') (first :: rest) = (first :: part) :: parts :=
            Text.pieces_cons_of_not_separates other cut
          have digits : ∀ more value, Text.readNat? 10 (first :: more) = some value →
              first.isDigit = true := by
            intro more value read
            exact (Text.isDigit_of_readNat? read).2 first List.mem_cons_self
          have digit : first.isDigit = true := by
            simp only [Text.readDecimal?, Text.splitSign_of_ne minus, whole] at denotes
            split at denotes
            next more same =>
                cases same
                obtain ⟨value, read, _⟩ := Option.map_eq_some_iff.mp denotes
                exact digits part value read
            next more fraction same =>
                cases same
                obtain ⟨value, read, _⟩ := Option.map_eq_some_iff.mp denotes
                exact digits _ value read
            next => cases denotes
          simp [beginsNumber, digit]

/-- A frame number is digits with an optional minus sign. -/
theorem isFrameNumber_of_readInt? {token : List Char} {number : Int}
    (read : Text.readInt? token = some number) :
    isFrameNumber token = true ∧ ∃ front last, token = front ++ [last] ∧ last.isDigit = true := by
  obtain ⟨size, digits⟩ : ∃ size, Text.readNat? 10 (Text.splitSign token).2 = some size := by
    rw [Text.readInt?] at read
    obtain ⟨_, signed, _⟩ := Option.map_eq_some_iff.mp read
    obtain ⟨size, digits, _⟩ := Option.bind_eq_some_iff.mp signed
    exact ⟨size, digits⟩
  have cut : ∃ sign, token = sign ++ (Text.splitSign token).2 ∧
      (Text.dropPrefix? ['-'] token).getD token = (Text.splitSign token).2 := by
    cases token with
    | nil => exact ⟨[], rfl, rfl⟩
    | cons first rest =>
        by_cases minus : first = '-'
        · subst minus
          exact ⟨['-'], rfl, rfl⟩
        · have other : ¬ '-' = first := fun same => minus same.symm
          refine ⟨[], by rw [Text.splitSign_of_ne minus]; rfl, ?_⟩
          simp [Text.splitSign_of_ne minus, Text.dropPrefix?, other]
  obtain ⟨sign, whole, dropped⟩ := cut
  obtain ⟨nonempty, all⟩ := Text.isDigit_of_readNat? digits
  constructor
  · rw [isFrameNumber, dropped, Bool.and_eq_true]
    exact ⟨by simpa using nonempty, List.all_eq_true.mpr all⟩
  · obtain ⟨front, last, ends⟩ := (List.eq_nil_or_concat _).resolve_left nonempty
    rw [List.concat_eq_append] at ends
    refine ⟨sign ++ front, last, ?_, all last (by rw [ends]; simp)⟩
    rw [List.append_assoc, ← ends]
    exact whole

theorem beginsNumber_append {number : List Char} (begins : beginsNumber number = true)
    (unit : List Char) : beginsNumber (number ++ unit) = true := by
  cases number with
  | nil => cases begins
  | cons first rest => exact begins

theorem beginsNumber_of_isFrameNumber {token : List Char}
    (isNumber : isFrameNumber token = true) : beginsNumber token = true := by
  cases token with
  | nil => cases isNumber
  | cons first rest =>
      by_cases minus : first = '-'
      · subst minus
        rfl
      · have other : ¬ '-' = first := fun same => minus same.symm
        have digits : (first :: rest).all Char.isDigit = true := by
          simpa [isFrameNumber, Text.dropPrefix?, other] using isNumber
        simp [beginsNumber, List.all_eq_true.mp digits first List.mem_cons_self]

theorem beginsNumber_of_isAlpha {first : Char} (letter : first.isAlpha = true)
    (rest : List Char) : beginsNumber (first :: rest) = false := by
  have noDigit : first.isDigit = false := by
    rw [Bool.eq_false_iff]
    intro digit
    have ranges : first.isAlpha =
        (decide (first.val ≥ 'A'.val ∧ first.val ≤ 'Z'.val) ||
          (decide (first.val ≥ 'a'.val) && decide (first.val ≤ 'z'.val))) := rfl
    rw [ranges] at letter
    simp only [Char.isDigit, UInt32.le_iff_toNat_le, Bool.or_eq_true, Bool.and_eq_true,
      decide_eq_true_eq, ge_iff_le] at letter digit
    have codes : '9'.val.toNat < 'A'.val.toNat ∧ '9'.val.toNat < 'a'.val.toNat := by decide
    omega
  have noMark : first ≠ '-' ∧ first ≠ '.' := by
    constructor
    · intro same
      subst same
      cases letter
    · intro same
      subst same
      cases letter
  simp [beginsNumber, noDigit, noMark.1, noMark.2]

/-- A token that begins like a number stands in no group. -/
theorem groupInside?_eq_none_of_beginsNumber {token : List Char}
    (begins : beginsNumber token = true) :
    groupInside? "constraints" token = none ∧ groupInside? "scale" token = none := by
  cases token with
  | nil => cases begins
  | cons first rest =>
      have other : first ≠ 'c' ∧ first ≠ 's' := by
        constructor
        · intro same
          subst same
          cases begins
        · intro same
          subst same
          cases begins
      constructor
      · exact groupInside?_eq_none (by simpa using other.1) (by decide)
      · exact groupInside?_eq_none (by simpa using other.2) (by decide)

namespace Token

theorem ofSpelling_restrictions (names : List Char) :
    ofSpelling (grouped "constraints" names) = .restrictions names := by
  rw [ofSpelling, groupInside?_eq_some_iff.mpr rfl]

theorem ofSpelling_scale (factors : List Char) :
    ofSpelling (grouped "scale" factors) = .scale factors := by
  have other : groupInside? "constraints" (grouped "scale" factors) = none := by
    apply groupInside?_eq_none
    · rw [grouped, List.head?_append_of_ne_nil _ (by decide)]
      decide
    · decide
  rw [ofSpelling, other, groupInside?_eq_some_iff.mpr rfl]

variable {number : List Char} (begins : beginsNumber number = true)
include begins

theorem ofSpelling_rotation : ofSpelling (number ++ "deg".toList) = .rotation number := by
  obtain ⟨noNames, noFactors⟩ :=
    groupInside?_eq_none_of_beginsNumber (beginsNumber_append begins "deg".toList)
  rw [ofSpelling, noNames, noFactors, measured?_eq_some_iff.mpr ⟨rfl, begins⟩]

theorem ofSpelling_offset : ofSpelling (number ++ "px".toList) = .offset number := by
  obtain ⟨noNames, noFactors⟩ :=
    groupInside?_eq_none_of_beginsNumber (beginsNumber_append begins "px".toList)
  have last : (number ++ "px".toList).getLast? = some 'x' := by simp
  have noRotation : measured? "deg" (number ++ "px".toList) = none :=
    measured?_eq_none (by rw [last]; decide) (by decide)
  rw [ofSpelling, noNames, noFactors, noRotation, measured?_eq_some_iff.mpr ⟨rfl, begins⟩]

theorem ofSpelling_seconds : ofSpelling (number ++ "s".toList) = .seconds number := by
  obtain ⟨noNames, noFactors⟩ :=
    groupInside?_eq_none_of_beginsNumber (beginsNumber_append begins "s".toList)
  have last : (number ++ "s".toList).getLast? = some 's' := by simp
  have noRotation : measured? "deg" (number ++ "s".toList) = none :=
    measured?_eq_none (by rw [last]; decide) (by decide)
  have noOffset : measured? "px" (number ++ "s".toList) = none :=
    measured?_eq_none (by rw [last]; decide) (by decide)
  rw [ofSpelling, noNames, noFactors, noRotation, noOffset,
    measured?_eq_some_iff.mpr ⟨rfl, begins⟩]

omit begins

theorem ofSpelling_frames {token : List Char} {frames : Int}
    (read : Text.readInt? token = some frames) : ofSpelling token = .frames := by
  obtain ⟨isNumber, front, last, ends, digit⟩ := isFrameNumber_of_readInt? read
  have begins := beginsNumber_of_isFrameNumber isNumber
  obtain ⟨noNames, noFactors⟩ := groupInside?_eq_none_of_beginsNumber begins
  have noUnit : ∀ unit : String, unit.toList ≠ [] →
      unit.toList.getLast?.any Char.isDigit = false → measured? unit token = none := by
    intro unit named letter
    apply measured?_eq_none
    · intro same
      rw [← same, ends, List.getLast?_concat, Option.any_some, digit] at letter
      cases letter
    · exact named
  rw [ofSpelling, noNames, noFactors, noUnit "deg" (by decide) (by decide),
    noUnit "px" (by decide) (by decide), noUnit "s" (by decide) (by decide), isNumber]
  rfl

theorem ofSpelling_word {token : List Char} {shape : HandShape}
    (known : HandShape.ofName? token = some shape) : ofSpelling token = .word := by
  obtain ⟨nonempty, letters⟩ := HandShape.isAlpha_of_ofName? known
  have unclosed : ')' ∉ token := by
    intro member
    cases letters _ member
  cases token with
  | nil => exact absurd rfl nonempty
  | cons first rest =>
      have letter := letters first List.mem_cons_self
      have begins := beginsNumber_of_isAlpha letter rest
      have noNumber : isFrameNumber (first :: rest) = false := by
        rw [Bool.eq_false_iff]
        intro isNumber
        rw [beginsNumber_of_isFrameNumber isNumber] at begins
        cases begins
      have isWord : isWord (first :: rest) = true := by
        rw [ClipFile.isWord, List.all_eq_true]
        intro character member
        simp [Char.isAlphanum, letters character member]
      rw [ofSpelling, groupInside?_eq_none_of_unclosed unclosed,
        groupInside?_eq_none_of_unclosed unclosed, measured?_eq_none_of_head begins,
        measured?_eq_none_of_head begins, measured?_eq_none_of_head begins, noNumber, isWord]
      rfl

end Token

end ClipFile

end LimbAnimation
