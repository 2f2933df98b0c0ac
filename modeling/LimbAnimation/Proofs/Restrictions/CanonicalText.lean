import Mathlib.Algebra.Group.Nat.Defs
import Mathlib.Data.List.Forall2
import LimbAnimation.Proofs.Restrictions.Text

/-!
# Canonical texts of restrictions

The format of restrictions as text, for reading and for writing: which texts denote a set,
and which one of them a set is written as.  Whoever writes and reads by the format loses no
set, so the text that is written for a set stands for all texts that denote it.
-/

namespace LimbAnimation

namespace Text

theorem trim_isEmpty_iff {text : List Char} : (trim text).isEmpty = true ↔ AllBlank text := by
  rw [List.isEmpty_iff]
  constructor
  · intro nothing
    obtain ⟨left, right, blankLeft, blankRight, whole⟩ := pads_trim text
    rw [nothing, List.append_nil] at whole
    rw [whole]
    exact List.forall_mem_append.mpr ⟨blankLeft, blankRight⟩
  · exact trim_of_allBlank

theorem visible_of_digitIn? {base : Nat} {character : Char}
    (digit : (digitIn? base character).isSome = true) :
    isBlank character = false ∧ character ≠ '|' := by
  obtain ⟨value, found⟩ := Option.isSome_iff_exists.mp digit
  have read := (Option.filter_eq_some_iff.mp found).1
  have between : ∀ {first last : Char}, first ≤ character ∧ character ≤ last →
      first.toNat ≤ character.toNat ∧ character.toNat ≤ last.toNat := id
  have code : (48 ≤ character.toNat ∧ character.toNat ≤ 57) ∨
      (97 ≤ character.toNat ∧ character.toNat ≤ 102) ∨
        (65 ≤ character.toNat ∧ character.toNat ≤ 70) := by
    rw [digitValue?] at read
    split at read
    next decimal => exact .inl (between decimal)
    next =>
        split at read
        next small => exact .inr (.inl (between small))
        next =>
            split at read
            next large => exact .inr (.inr (between large))
            next => cases read
  constructor
  · simp [isBlank]
    omega
  · rintro rfl
    revert code
    decide

/-- What is read as a number, with a sign or without, has no blank and no bar in it. -/
theorem isPart_of_readBounded? {base limit value : Nat} {start digits : List Char}
    (isPart : IsPart start) (read : readBounded? base limit digits = some value) :
    IsPart (start ++ digits) := by
  have number := (Option.filter_eq_some_iff.mp read).1
  rw [readNat?, Option.ite_none_left_eq_some] at number
  have plain := digitIn?_isSome_of_readDigits? number.2
  have characters : ∀ character ∈ digits, isBlank character = false ∧ character ≠ '|' := by
    intro character member
    cases sign : dropPrefix? ['+'] digits with
    | none =>
        rw [sign] at plain
        exact visible_of_digitIn? (plain character member)
    | some rest =>
        rw [sign] at plain
        rw [dropPrefix?_eq_some_iff.mp sign, List.singleton_append] at member
        rcases List.mem_cons.mp member with rfl | later
        · decide
        · exact visible_of_digitIn? (plain character later)
  constructor
  · simp [isPart.nonempty]
  · exact List.forall_mem_append.mpr
      ⟨isPart.visible, fun character member => (characters character member).1⟩
  · rw [List.mem_append, not_or]
    exact ⟨isPart.noBar, fun member => (characters '|' member).2 rfl⟩

end Text

namespace Restrictions

section Reading

/-- What one part of a text stands for: a flag, or any bits as a hexadecimal number. -/
inductive PartDenotes : List Char → Restrictions → Prop where
  | flag (restriction : Restriction) : PartDenotes restriction.flagName.toList restriction.set
  | bits {digits : List Char} {value : Nat} :
      Text.readBounded? 16 (2 ^ 32) digits = some value →
      PartDenotes ("0x".toList ++ digits) ⟨.ofNat 32 value⟩

/-- The texts of a set.  Blanks alone stand for the empty set; otherwise there are parts
between bars, each with blanks around it or without, and the set is their union. -/
inductive Denotes : List Char → Restrictions → Prop where
  | blank {text : List Char} : Text.AllBlank text → Denotes text .empty
  | parts {texts : List (List Char)} {sets : List Restrictions} : texts ≠ [] →
      List.Forall₂ (fun text set => ∃ part, Text.Pads part text ∧ PartDenotes part set) texts sets →
      Denotes (['|'].intercalate texts) (sets.foldl (· ∪ ·) .empty)

variable {part padded : List Char} {set : Restrictions}

theorem PartDenotes.isPart (denotes : PartDenotes part set) : Text.IsPart part := by
  cases denotes with
  | flag restriction => exact (isPart_flagName restriction).1
  | bits read => exact Text.isPart_of_readBounded? (by decide) read

theorem ofPart?_eq_some_iff : ofPart? part = some set ↔ PartDenotes part set := by
  constructor
  · intro read
    rw [ofPart?] at read
    split at read
    next digits hexadecimal =>
        obtain ⟨value, bounded, rfl⟩ := Option.map_eq_some_iff.mp read
        rw [Text.dropPrefix?_eq_some_iff.mp hexadecimal]
        exact .bits bounded
    next =>
        obtain ⟨restriction, found, rfl⟩ := Option.map_eq_some_iff.mp read
        have named := List.find?_some found
        rw [← of_decide_eq_true named]
        exact .flag restriction
  · intro denotes
    cases denotes with
    | flag restriction => exact (isPart_flagName restriction).2
    | bits read =>
        rw [ofPart?, Text.dropPrefix?_append]
        dsimp only
        rw [read]
        rfl

/-- Blanks around a part are taken away. -/
theorem ofPart?_trim_eq_some_iff :
    ofPart? (Text.trim padded) = some set ↔
      ∃ part, Text.Pads part padded ∧ PartDenotes part set := by
  rw [ofPart?_eq_some_iff]
  constructor
  · exact fun denotes => ⟨_, Text.pads_trim padded, denotes⟩
  · rintro ⟨part, pads, denotes⟩
    rwa [pads.trim_eq, denotes.isPart.trim_eq]

theorem foldlM_union_eq_some_iff {texts : List (List Char)} {first : Restrictions} :
    texts.foldlM (fun set text => (ofPart? (Text.trim text)).map (set ∪ ·)) first = some set ↔
      ∃ sets, List.Forall₂ (fun text set => ofPart? (Text.trim text) = some set) texts sets ∧
        sets.foldl (· ∪ ·) first = set := by
  induction texts generalizing first with
  | nil =>
      constructor
      · rintro ⟨⟩
        exact ⟨[], .nil, rfl⟩
      · rintro ⟨sets, none, rfl⟩
        cases none
        rfl
  | cons text rest ih =>
      rw [List.foldlM_cons, Option.bind_eq_bind, Option.bind_eq_some_iff]
      constructor
      · rintro ⟨next, here, later⟩
        obtain ⟨own, read, rfl⟩ := Option.map_eq_some_iff.mp here
        obtain ⟨sets, reads, together⟩ := ih.mp later
        exact ⟨own :: sets, .cons read reads, together⟩
      · rintro ⟨sets, reads, together⟩
        cases reads with
        | cons read reads => exact ⟨_, by rw [read]; rfl, ih.mpr ⟨_, reads, together⟩⟩

theorem noBar_of_allBlank {text : List Char} (blank : Text.AllBlank text) :
    ∀ character ∈ text, (character == '|') = false := by
  intro character member
  rw [beq_eq_false_iff_ne]
  rintro rfl
  cases blank '|' member

theorem noBar_of_pads (pads : Text.Pads part padded) (isPart : Text.IsPart part) :
    ∀ character ∈ padded, (character == '|') = false := by
  obtain ⟨left, right, blankLeft, blankRight, rfl⟩ := pads
  have inside : ∀ character ∈ part, (character == '|') = false := by
    intro character member
    rw [beq_eq_false_iff_ne]
    rintro rfl
    exact isPart.noBar member
  rw [List.forall_mem_append, List.forall_mem_append]
  exact ⟨⟨noBar_of_allBlank blankLeft, inside⟩, noBar_of_allBlank blankRight⟩

/-- A text is accepted exactly when it denotes a set, and it is read as that set. -/
theorem ofText?_eq_some_iff {text : String} :
    ofText? text = some set ↔ Denotes text.toList set := by
  show (if (Text.trim text.toList).isEmpty then _ else _) = _ ↔ _
  generalize text.toList = characters
  constructor
  · intro read
    split at read
    next blank =>
        cases read
        exact .blank (Text.trim_isEmpty_iff.mp blank)
    next =>
        obtain ⟨sets, reads, rfl⟩ := foldlM_union_eq_some_iff.mp read
        obtain ⟨first, others, cut⟩ := Text.exists_pieces_eq_cons (· == '|') characters
        have only : ∀ character, (character == '|') = true → character = '|' :=
          fun _ same => eq_of_beq same
        rw [← Text.intercalate_pieces only characters]
        refine .parts (by rw [cut]; exact List.cons_ne_nil _ _) ?_
        exact reads.imp fun _ _ => ofPart?_trim_eq_some_iff.mp
  · intro denotes
    cases denotes with
    | blank blank => rw [if_pos (Text.trim_isEmpty_iff.mpr blank)]
    | @parts texts sets nonempty denote =>
        have both := denote.imp fun text set (denotes : ∃ part, _ ∧ PartDenotes part set) =>
          And.intro
            (denotes.elim fun part given => noBar_of_pads given.1 given.2.isPart)
            (ofPart?_trim_eq_some_iff.mpr denotes)
        obtain ⟨noBar, reads⟩ := (List.forall₂_and_left _ _).mp both
        have cut : Text.pieces (· == '|') (['|'].intercalate texts) = texts :=
          Text.pieces_intercalate rfl nonempty noBar
        rw [if_neg, cut]
        · exact foldlM_union_eq_some_iff.mpr ⟨sets, reads, rfl⟩
        · -- Blanks alone would be one part, and an empty one.
          intro blank
          have alone := Text.pieces_of_none (noBar_of_allBlank (Text.trim_isEmpty_iff.mp blank))
          have empty : ofPart? [] = none := by decide
          rw [← cut, alone] at reads
          cases reads with
          | cons read _ =>
              rw [List.isEmpty_iff.mp blank, empty] at read
              cases read

end Reading

section Writing

/-- Whether a flag is written for a set behind some others: the set includes it wholly, and
it has a bit that none of these has. -/
def IsWritten (set : Restrictions) (written : List Restriction) (flag : Restriction) : Prop :=
  set.includes flag.set = true ∧ ∃ index, flag.set.bits.getLsbD index = true ∧
    ∀ earlier ∈ written, earlier.set.bits.getLsbD index = false

/-- The flags that are written for a set when those of a list are gone through in order, given
the flags that are written already. -/
inductive WritesFlags (set : Restrictions) :
    (written declared flags : List Restriction) → Prop where
  | done {written : List Restriction} : WritesFlags set written [] []
  | taken {written declared flags : List Restriction} {flag : Restriction} :
      IsWritten set written flag → WritesFlags set (written ++ [flag]) declared flags →
      WritesFlags set written (flag :: declared) (flag :: flags)
  | passed {written declared flags : List Restriction} {flag : Restriction} :
      ¬ IsWritten set written flag → WritesFlags set written declared flags →
      WritesFlags set written (flag :: declared) flags

/-- The bits of a set that no written flag has. -/
def IsLeft (set : Restrictions) (written : List Restriction) (left : Restrictions) : Prop :=
  ∀ index, left.bits.getLsbD index =
    (set.bits.getLsbD index && written.all fun flag => !flag.set.bits.getLsbD index)

/-- The written form of a set: flags in the order of their declaration, then the bits that are
left as a hexadecimal number, if there are any, with bars between them. -/
def Written (set : Restrictions) (text : String) : Prop :=
  ∃ flags left, WritesFlags set [] Restriction.all flags ∧ IsLeft set flags left ∧
    text = " | ".intercalate (flags.map Restriction.flagName ++
      if left = empty then [] else [hexText left.bits.toNat])

variable {set left unwritten : Restrictions} {written declared flags : List Restriction}
  {flag : Restriction}

theorem meets_iff {other : Restrictions} : set.meets other = true ↔
    ∃ index, set.bits.getLsbD index = true ∧ other.bits.getLsbD index = true := by
  have zero : ∀ index, (0 : BitVec 32).getLsbD index = false := fun _ => BitVec.getLsbD_zero
  rw [meets, bne_iff_ne, ne_eq]
  constructor
  · intro some
    apply Classical.byContradiction
    intro none
    apply some
    apply BitVec.eq_of_getLsbD_eq
    intro index _
    rw [BitVec.getLsbD_and, zero, Bool.and_eq_false_imp]
    intro mine
    exact eq_false_of_ne_true fun other => none ⟨index, mine, other⟩
  · rintro ⟨index, mine, other⟩ nothing
    have both := congrArg (fun bits => bits.getLsbD index) nothing
    rw [BitVec.getLsbD_and, mine, other, zero] at both
    cases both

/-- Bits are still unwritten exactly where no written flag has them. -/
theorem IsLeft.isWritten_iff (isLeft : IsLeft set written unwritten) :
    IsWritten set written flag ↔
      set.includes flag.set = true ∧ unwritten.meets flag.set = true := by
  refine and_congr_right fun includes => ?_
  rw [meets_iff]
  refine exists_congr fun index => ?_
  rw [isLeft index, Bool.and_eq_true, List.all_eq_true, and_comm]
  simp only [Bool.not_eq_true']
  constructor
  · rintro ⟨others, own⟩
    exact ⟨⟨getLsbD_of_includes includes own, others⟩, own⟩
  · rintro ⟨⟨_, others⟩, own⟩
    exact ⟨others, own⟩

theorem IsLeft.without (isLeft : IsLeft set written unwritten) (flag : Restriction) :
    IsLeft set (written ++ [flag]) (unwritten.without flag.set) := by
  intro index
  rw [getLsbD_without, isLeft index, List.all_append, List.all_cons, List.all_nil, Bool.and_true,
    Bool.and_assoc]

/-- The parts of a set are found as the format says. -/
theorem namedParts_writes (isLeft : IsLeft set written unwritten)
    (split : namedParts set unwritten declared = (flags, left)) :
    WritesFlags set written declared flags ∧ IsLeft set (written ++ flags) left := by
  induction declared generalizing written unwritten flags with
  | nil =>
      cases split
      rw [List.append_nil]
      exact ⟨.done, isLeft⟩
  | cons flag declared ih =>
      rw [namedParts] at split
      split at split
      next taken =>
          cases later : namedParts set (unwritten.without flag.set) declared with
          | mk others rest =>
              rw [later] at split
              cases split
              obtain ⟨writes, isRest⟩ := ih (isLeft.without flag) later
              rw [List.append_assoc, List.singleton_append] at isRest
              exact ⟨.taken (isLeft.isWritten_iff.mpr taken) writes, isRest⟩
      next passed =>
          obtain ⟨writes, isRest⟩ := ih isLeft split
          exact ⟨.passed (mt isLeft.isWritten_iff.mp passed) writes, isRest⟩

theorem WritesFlags.unique (writes : WritesFlags set written declared flags)
    {others : List Restriction} (otherWrites : WritesFlags set written declared others) :
    flags = others := by
  induction writes generalizing others with
  | done =>
      cases otherWrites
      rfl
  | taken isWritten _ ih =>
      cases otherWrites with
      | taken _ later => rw [ih later]
      | passed notWritten _ => exact absurd isWritten notWritten
  | passed notWritten _ ih =>
      cases otherWrites with
      | taken isWritten _ => exact absurd isWritten notWritten
      | passed _ later => exact ih later

theorem IsLeft.unique (isLeft : IsLeft set flags left) {other : Restrictions}
    (isOther : IsLeft set flags other) : left = other := by
  apply congrArg Restrictions.mk
  apply BitVec.eq_of_getLsbD_eq
  intro index _
  rw [isLeft index, isOther index]

/-- A set has one written form, its text. -/
theorem written_iff {text : String} : Written set text ↔ text = set.toText := by
  generalize split : namedParts set set Restriction.all = result
  obtain ⟨flags, left⟩ := result
  have nothing : IsLeft set [] set := fun index => by rw [List.all_nil, Bool.and_true]
  obtain ⟨writes, isLeft⟩ := namedParts_writes nothing split
  have toText : set.toText = " | ".intercalate (flags.map Restriction.flagName ++
      if left = empty then [] else [hexText left.bits.toNat]) := by
    rw [Restrictions.toText, split]
  rw [toText]
  constructor
  · rintro ⟨others, rest, otherWrites, isRest, rfl⟩
    cases otherWrites.unique writes
    cases isRest.unique isLeft
    rfl
  · rintro rfl
    exact ⟨flags, left, writes, isLeft, rfl⟩

section

variable (write : Restrictions → String) (read? : String → Option Restrictions)

/-- A text brought to the written form of the set that it denotes. -/
def canonical? (text : String) : Option String := (read? text).map write

end

/-- Sets are written and read by the format: each is written in its only form, and the texts
that are accepted are those that denote a set.  Then every set is read back from what is
written, and the canonical form of a text denotes the same set, is canonical itself, and is
shared by all texts of the set and by no others. -/
theorem text_is_lossless_and_canonical {write : Restrictions → String}
    {read? : String → Option Restrictions} (writes : ∀ set, Written set (write set))
    (reads : ∀ text set, read? text = some set ↔ Denotes text.toList set) :
    (∀ set text, Written set text ↔ text = write set) ∧
      (∀ set, read? (write set) = some set) ∧
        ∀ text canonical, canonical? write read? text = some canonical →
          read? canonical = read? text ∧ canonical? write read? canonical = some canonical ∧
            ∀ other, canonical? write read? other = some canonical ↔
              read? other = read? text := by
  have form : ∀ set, write set = set.toText := fun set => written_iff.mp (writes set)
  have back : ∀ set, read? (write set) = some set := by
    intro set
    rw [reads, form, ← ofText?_eq_some_iff]
    exact ofText?_toText set
  refine ⟨?_, back, ?_⟩
  · intro set text
    rw [form]
    exact written_iff
  · intro text canonical given
    obtain ⟨set, denotes, rfl⟩ := Option.map_eq_some_iff.mp given
    refine ⟨(back set).trans denotes.symm, ?_, ?_⟩
    · rw [canonical?, back]
      rfl
    · intro other
      rw [canonical?, Option.map_eq_some_iff, denotes]
      constructor
      · rintro ⟨otherSet, otherDenotes, same⟩
        have otherBack := back otherSet
        rw [same, back] at otherBack
        exact otherDenotes.trans otherBack.symm
      · exact fun same => ⟨set, same, rfl⟩

/-- The writer and the reader of this library keep to the format; two names of one bit are
written once, and the bit without a name is kept. -/
theorem toText_is_lossless_and_canonical :
    (∀ set, Written set set.toText) ∧
      (∀ text set, ofText? text = some set ↔ Denotes text.toList set) ∧
        (∀ set text, Written set text ↔ text = set.toText) ∧
          (∀ set : Restrictions, ofText? set.toText = some set) ∧
            (∀ text canonical, canonical? toText ofText? text = some canonical →
              ofText? canonical = ofText? text ∧
                canonical? toText ofText? canonical = some canonical ∧
                  ∀ other, canonical? toText ofText? other = some canonical ↔
                    ofText? other = ofText? text) ∧
              canonical? toText ofText? "PREVENT_BLOCK| 0x10000001" =
                some "PREVENT_DYING | PREVENT_IRON_SIGHT | 0x10000000" := by
  have writes : ∀ set, Written set set.toText := fun _ => written_iff.mpr rfl
  have reads : ∀ text set, ofText? text = some set ↔ Denotes text.toList set :=
    fun _ _ => ofText?_eq_some_iff
  obtain ⟨unique, lossless, canonical⟩ := text_is_lossless_and_canonical writes reads
  exact ⟨writes, reads, unique, lossless, canonical, by decide +kernel⟩

end Writing

end Restrictions

end LimbAnimation
