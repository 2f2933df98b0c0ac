import LimbAnimation.Proofs.Text.Affixes
import LimbAnimation.Proofs.Text.Numeral
import LimbAnimation.Proofs.Text.Pieces
import LimbAnimation.Proofs.Text.Trim
import LimbAnimation.Restrictions.Text

/-!
# Texts of restrictions

The text of a set denotes the set again: its parts name what they cover and what is left,
and nothing else.
-/

namespace LimbAnimation

namespace Text

variable {text : List Char}

/-- A text that can stand between bars: it is not empty, and no blank or bar is in it. -/
structure IsPart (text : List Char) : Prop where
  nonempty : text ≠ []
  visible : ∀ character ∈ text, isBlank character = false
  noBar : '|' ∉ text

instance (text : List Char) : Decidable (IsPart text) :=
  decidable_of_iff (text ≠ [] ∧ (∀ character ∈ text, isBlank character = false) ∧ '|' ∉ text)
    ⟨fun ⟨nonempty, visible, noBar⟩ => ⟨nonempty, visible, noBar⟩,
      fun part => ⟨part.nonempty, part.visible, part.noBar⟩⟩

theorem dropWhile_of_visible (visible : ∀ character ∈ text, isBlank character = false) :
    text.dropWhile isBlank = text := by
  cases text with
  | nil => rfl
  | cons first rest => simp [visible first List.mem_cons_self]

theorem IsPart.trim_eq (part : IsPart text) : trim text = text := by
  have reversed : ∀ character ∈ text.reverse, isBlank character = false := by
    intro character member
    exact part.visible character (List.mem_reverse.mp member)
  rw [trim, dropWhile_of_visible part.visible, dropWhile_of_visible reversed, List.reverse_reverse]

theorem exists_of_mem_toDigits {base number : Nat} {character : Char} (large : 1 < base)
    (member : character ∈ Nat.toDigits base number) :
    ∃ digit < base, character = Nat.digitChar digit := by
  induction number using Nat.strongRecOn with
  | _ number ih =>
      rw [Nat.toDigits_eq_if large] at member
      split at member
      next below => exact ⟨number, below, List.mem_singleton.mp member⟩
      next above =>
          rcases List.mem_append.mp member with front | last
          · exact ih _ (Nat.div_lt_self (by omega) large) front
          · exact ⟨number % base, Nat.mod_lt _ (by omega), List.mem_singleton.mp last⟩

/-- Parts with bars and blanks between them are found again. -/
theorem map_trim_pieces {texts : List (List Char)} (nonempty : texts ≠ [])
    (parts : ∀ text ∈ texts, IsPart text) {left : List Char} (blank : AllBlank left)
    (noBar : '|' ∉ left) :
    (pieces (· == '|') (left ++ " | ".toList.intercalate texts)).map trim = texts := by
  have other : ∀ {text : List Char}, '|' ∉ text →
      ∀ character ∈ text, (character == '|') = false := by
    intro text noBar character member
    rw [beq_eq_false_iff_ne]
    intro same
    exact noBar (same ▸ member)
  induction texts generalizing left with
  | nil => exact absurd rfl nonempty
  | cons text rest ih =>
      rw [List.forall_mem_cons] at parts
      obtain ⟨part, later⟩ := parts
      cases rest with
      | nil =>
          have whole : '|' ∉ left ++ text := by
            rw [List.mem_append, not_or]
            exact ⟨noBar, part.noBar⟩
          rw [List.intercalate_singleton, pieces_of_none (other whole), List.map_singleton,
            trim_blank_append blank, part.trim_eq]
      | cons next rest =>
          have own : '|' ∉ left ++ text ++ [' '] := by
            simp [noBar, part.noBar]
          have space : AllBlank [' '] := by decide
          have cut : left ++ " | ".toList.intercalate (text :: next :: rest) =
              (left ++ text ++ [' ']) ++
                '|' :: ([' '] ++ " | ".toList.intercalate (next :: rest)) := by
            rw [List.intercalate_cons_cons]
            simp
          rw [cut, pieces_append_cons (other own) (by decide), List.map_cons,
            ih (List.cons_ne_nil _ _) later space (by decide), trim_append_blank space,
            trim_blank_append blank, part.trim_eq]

end Text

namespace Restrictions

/-- The bits of a union are those of its sets. -/
theorem getLsbD_foldl_union (sets : List Restrictions) (first : Restrictions) (index : Nat) :
    (sets.foldl (· ∪ ·) first).bits.getLsbD index =
      (first.bits.getLsbD index || sets.any (·.bits.getLsbD index)) := by
  induction sets generalizing first with
  | nil => simp
  | cons set sets ih =>
      have union : (first ∪ set).bits = first.bits ||| set.bits := rfl
      rw [List.foldl_cons, ih, union, BitVec.getLsbD_or, List.any_cons, Bool.or_assoc]

theorem getLsbD_of_includes {set other : Restrictions} (includes : set.includes other = true)
    {index : Nat} (bit : other.bits.getLsbD index = true) : set.bits.getLsbD index = true := by
  have same : set.bits &&& other.bits = other.bits := eq_of_beq includes
  rw [← same, BitVec.getLsbD_and, Bool.and_eq_true] at bit
  exact bit.1

theorem getLsbD_without (set other : Restrictions) (index : Nat) :
    (set.without other).bits.getLsbD index =
      (set.bits.getLsbD index && !other.bits.getLsbD index) := by
  rw [without, BitVec.getLsbD_and, BitVec.getLsbD_not]
  cases bit : set.bits.getLsbD index with
  | false => rfl
  | true => simp [BitVec.lt_of_getLsbD bit]

/-- The named parts and the bits left over cover what was to be written, and nothing that is
not in the set. -/
theorem namedParts_covers {set unwritten : Restrictions} {named parts : List Restriction}
    {leftOver : Restrictions} (split : namedParts set unwritten named = (parts, leftOver))
    (index : Nat) :
    ((parts.any (·.set.bits.getLsbD index)) = true → set.bits.getLsbD index = true) ∧
      (leftOver.bits.getLsbD index = true → unwritten.bits.getLsbD index = true) ∧
        (unwritten.bits.getLsbD index = true →
          ((parts.any (·.set.bits.getLsbD index)) || leftOver.bits.getLsbD index) = true) := by
  induction named generalizing unwritten parts with
  | nil =>
      cases split
      simp
  | cons restriction rest ih =>
      rw [namedParts] at split
      split at split
      next taken =>
          cases later : namedParts set (unwritten.without restriction.set) rest with
          | mk laterParts laterLeft =>
              rw [later] at split
              cases split
              obtain ⟨inside, kept, covered⟩ := ih later
              have included : restriction.set.bits.getLsbD index = true →
                  set.bits.getLsbD index = true := getLsbD_of_includes taken.1
              rw [getLsbD_without] at kept covered
              rw [List.any_cons]
              cases own : restriction.set.bits.getLsbD index with
              | true =>
                  rw [own] at included kept
                  exact ⟨fun _ => included rfl, fun left => absurd (kept left) (by simp), by simp⟩
              | false =>
                  rw [own] at kept covered
                  exact ⟨by simpa using inside, by simpa using kept, by simpa using covered⟩
      next => exact ih split

/-- The parts that a set is written as are the set together. -/
theorem union_namedParts {set : Restrictions} {parts : List Restriction} {leftOver : Restrictions}
    (split : namedParts set set Restriction.all = (parts, leftOver)) :
    (parts.map Restriction.set ++ [leftOver]).foldl (· ∪ ·) .empty = set := by
  apply congrArg Restrictions.mk
  apply BitVec.eq_of_getLsbD_eq
  intro index _
  have unions := getLsbD_foldl_union (parts.map Restriction.set ++ [leftOver]) .empty index
  obtain ⟨inside, kept, covered⟩ := namedParts_covers split index
  have together : (parts.map Restriction.set ++ [leftOver]).any (·.bits.getLsbD index) =
      ((parts.any (·.set.bits.getLsbD index)) || leftOver.bits.getLsbD index) := by
    simp [List.any_append, List.any_map, Function.comp_def]
  have none : (empty : Restrictions).bits.getLsbD index = false := BitVec.getLsbD_zero
  rw [unions, together, none, Bool.false_or, Bool.eq_iff_iff]
  constructor
  · intro bit
    rcases Bool.or_eq_true_iff.mp bit with named | left
    · exact inside named
    · exact kept left
  · exact covered

theorem isPart_flagName (restriction : Restriction) :
    Text.IsPart restriction.flagName.toList ∧
      ofPart? restriction.flagName.toList = some restriction.set := by
  have all : ∀ restriction ∈ Restriction.all, Text.IsPart restriction.flagName.toList ∧
      ofPart? restriction.flagName.toList = some restriction.set := by decide +kernel
  exact all restriction (by cases restriction <;> decide)

theorem isPart_hexText (bits : BitVec 32) :
    Text.IsPart (hexText bits.toNat).toList ∧
      ofPart? (hexText bits.toNat).toList = some ⟨bits⟩ := by
  have written : (hexText bits.toNat).toList = "0x".toList ++ Nat.toDigits 16 bits.toNat := by
    have digits : (String.ofList (Nat.toDigits 16 bits.toNat)).toList =
        Nat.toDigits 16 bits.toNat := String.toList_ofList
    rw [hexText, String.toList_append, digits]
  have digits : ∀ digit < 16, Text.isBlank (Nat.digitChar digit) = false ∧
      Nat.digitChar digit ≠ '|' ∧ Nat.digitChar digit ≠ '+' := by decide
  have plain : ∀ character ∈ Nat.toDigits 16 bits.toNat,
      Text.isBlank character = false ∧ character ≠ '|' ∧ character ≠ '+' := by
    intro character member
    obtain ⟨digit, below, same⟩ := Text.exists_of_mem_toDigits (by decide) member
    subst same
    exact digits digit below
  constructor
  · rw [written]
    refine ⟨by simp, ?_, ?_⟩
    · intro character member
      rcases List.mem_append.mp member with start | digit
      · have blanks : ∀ character ∈ "0x".toList, Text.isBlank character = false := by decide
        exact blanks character start
      · exact (plain character digit).1
    · intro member
      rcases List.mem_append.mp member with start | digit
      · exact absurd start (by decide)
      · exact (plain '|' digit).2.1 rfl
  · have noPlus : (Text.dropPrefix? ['+'] (Nat.toDigits 16 bits.toNat)).getD
        (Nat.toDigits 16 bits.toNat) = Nat.toDigits 16 bits.toNat := by
      cases spelling : Nat.toDigits 16 bits.toNat with
      | nil => rfl
      | cons first rest =>
          rw [spelling] at plain
          have other : ¬ '+' = first := fun same =>
            (plain first List.mem_cons_self).2.2 same.symm
          simp [Text.dropPrefix?, other]
    rw [written, ofPart?, Text.dropPrefix?_append]
    dsimp only
    rw [Text.readBounded?, noPlus, Text.readNat?_toDigits (by decide) (by decide),
      Option.filter_some, if_pos (decide_eq_true bits.isLt), Option.map_some, BitVec.ofNat_toNat,
      BitVec.setWidth_eq]

/-- Parts with bars between them denote the union of what they denote. -/
theorem ofText?_intercalate {texts : List String} {sets : List Restrictions}
    (nonempty : texts ≠ []) (parts : ∀ text ∈ texts, Text.IsPart text.toList)
    (denote : texts.map (fun text => ofPart? text.toList) = sets.map some) :
    ofText? (" | ".intercalate texts) = some (sets.foldl (· ∪ ·) .empty) := by
  have characters : ∀ text ∈ texts.map String.toList, Text.IsPart text := by
    intro text member
    obtain ⟨own, among, same⟩ := List.mem_map.mp member
    subst same
    exact parts own among
  have cut := Text.map_trim_pieces (by simpa using nonempty) characters
    (show Text.AllBlank [] by decide) (by decide)
  have visible :
      (Text.trim (" | ".toList.intercalate (texts.map String.toList))).isEmpty = false := by
    cases texts with
    | nil => exact absurd rfl nonempty
    | cons text rest =>
        have part := parts text List.mem_cons_self
        obtain ⟨more, joined⟩ : ∃ more,
            " | ".toList.intercalate ((text :: rest).map String.toList) = text.toList ++ more := by
          cases rest with
          | nil => exact ⟨[], by simp⟩
          | cons next rest =>
              exact ⟨_, List.intercalate_cons_cons.trans (List.append_assoc _ _ _)⟩
        cases spelling : text.toList with
        | nil => exact absurd spelling part.nonempty
        | cons first others =>
            have seen := part.visible first (by rw [spelling]; exact List.mem_cons_self)
            rw [joined, spelling, List.cons_append, Text.trim_cons seen]
            rfl
  have folded : ∀ first : Restrictions,
      (texts.map String.toList).foldlM (fun set part => (ofPart? part).map (set ∪ ·)) first =
        some (sets.foldl (· ∪ ·) first) := by
    clear nonempty parts characters cut visible
    intro first
    induction texts generalizing sets first with
    | nil =>
        have none : sets = [] := by simpa using denote.symm
        rw [none]
        rfl
    | cons text rest ih =>
        cases sets with
        | nil => cases denote
        | cons set sets =>
            rw [List.map_cons, List.map_cons, List.cons.injEq] at denote
            rw [List.map_cons, List.foldlM_cons, denote.1]
            exact ih denote.2 _
  have whole := folded .empty
  rw [← cut, List.foldlM_map, List.nil_append] at whole
  rw [ofText?, String.toList_intercalate, visible]
  exact whole

theorem union_empty (set : Restrictions) : set ∪ empty = set := by
  apply congrArg Restrictions.mk
  exact BitVec.or_zero

/-- The text of a set denotes the set. -/
theorem ofText?_toText (set : Restrictions) : ofText? set.toText = some set := by
  generalize split : namedParts set set Restriction.all = result
  obtain ⟨parts, leftOver⟩ := result
  have together := union_namedParts split
  have names : ∀ text ∈ parts.map Restriction.flagName, Text.IsPart text.toList := by
    intro text member
    obtain ⟨restriction, _, same⟩ := List.mem_map.mp member
    subst same
    exact (isPart_flagName restriction).1
  have denote : (parts.map Restriction.flagName).map (fun text => ofPart? text.toList) =
      (parts.map Restriction.set).map some := by
    simp [Function.comp_def, isPart_flagName]
  rw [toText, split]
  dsimp only
  by_cases nothing : leftOver = empty
  · rw [nothing, List.foldl_append, List.foldl_cons, List.foldl_nil, union_empty] at together
    rw [if_pos nothing, List.append_nil]
    cases parts with
    | nil =>
        subst together
        decide
    | cons first rest =>
        rw [ofText?_intercalate (by simp) names denote, together]
  · obtain ⟨isPart, denotes⟩ := isPart_hexText leftOver.bits
    rw [if_neg nothing]
    have all : ∀ text ∈ parts.map Restriction.flagName ++ [hexText leftOver.bits.toNat],
        Text.IsPart text.toList := by
      intro text member
      rcases List.mem_append.mp member with named | left
      · exact names text named
      · rw [List.mem_singleton.mp left]
        exact isPart
    have denoteAll : (parts.map Restriction.flagName ++ [hexText leftOver.bits.toNat]).map
        (fun text => ofPart? text.toList) = (parts.map Restriction.set ++ [leftOver]).map some := by
      rw [List.map_append, List.map_append, denote, List.map_singleton, denotes]
      rfl
    rw [ofText?_intercalate (by simp) all denoteAll, together]

end Restrictions

end LimbAnimation
