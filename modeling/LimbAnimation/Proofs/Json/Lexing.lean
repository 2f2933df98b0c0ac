import LimbAnimation.Proofs.Json.Decimals
import LimbAnimation.Proofs.Json.Laws

/-!
# Tokens of printed values

A printed value is cut into the tokens of its parts, whatever follows it, as long as what
follows does not go on with a bare word.
-/

namespace LimbAnimation.Json

mutual

/-- The tokens of a value. -/
def tokens : Json → List Token
  | .null => [.scalar .null]
  | .bool value => [.scalar (.bool value)]
  | .number numeral => [.scalar (.number numeral)]
  | .text content => [.text content]
  | .array items => .openArray :: (itemsTokens items ++ [.closeArray])
  | .object members => .openObject :: (membersTokens members ++ [.closeObject])

def itemsTokens : List Json → List Token
  | [] => []
  | [item] => tokens item
  | item :: items => tokens item ++ .comma :: itemsTokens items

def membersTokens : List (Option String × Json) → List Token
  | [] => []
  | [(name, value)] => .text name :: .colon :: tokens value
  | (name, value) :: members =>
      .text name :: .colon :: (tokens value ++ .comma :: membersTokens members)

end

namespace Lexer

/-- The tokens that the machine finds when a text is all that is left. -/
def run? (lexer : Lexer) (text : List Char) : Option (List Token) :=
  (text.foldlM step lexer).bind finish?

theorem run?_cons (lexer : Lexer) (character : Char) (rest : List Char) :
    lexer.run? (character :: rest) = (lexer.step character).bind fun next => next.run? rest := by
  rw [run?, List.foldlM_cons, Option.bind_eq_bind, Option.bind_assoc]
  rfl

/-- No bare word goes on with the text. -/
def Stops (rest : List Char) : Prop := ∀ next ∈ rest.head?, endsWord next = true

/-- A text is cut into tokens, wherever it stands between others. -/
def Finds (text : List Char) (tokens : List Token) : Prop :=
  ∀ found rest, Stops rest →
    run? ⟨.between, found⟩ (text ++ rest) = run? ⟨.between, tokens.reverse ++ found⟩ rest

theorem Finds.nil : Finds [] [] := by
  intro found rest _
  rfl

theorem begin_mark {character : Char} {token : Token} (mark : mark? character = some token)
    (found : List Token) : begin found character = ⟨.between, token :: found⟩ := by
  have other : isSpace character = false ∧ character ≠ '"' := by
    unfold mark? at mark
    split at mark <;> first | exact ⟨by decide, by decide⟩ | cases mark
  rw [begin, other.1, if_neg other.2, mark]
  rfl

/-- A mark is a token by itself. -/
theorem Finds.mark {character : Char} {token : Token} (mark : mark? character = some token)
    {text : List Char} {tokens : List Token} (finds : Finds text tokens) :
    Finds (character :: text) (token :: tokens) := by
  intro found rest ends
  have step : step ⟨.between, found⟩ character = some ⟨.between, token :: found⟩ :=
    congrArg some (begin_mark mark found)
  rw [List.cons_append, run?_cons, step, Option.bind_some, finds _ rest ends, List.reverse_cons,
    List.append_assoc, List.singleton_append]

/-- Two parts with a mark between them are cut on their own. -/
theorem Finds.append {text more : List Char} {tokens others : List Token} {character : Char}
    {token : Token} (first : Finds text tokens) (mark : mark? character = some token)
    (second : Finds more others) :
    Finds (text ++ character :: more) (tokens ++ token :: others) := by
  intro found rest ends
  have stops : Stops (character :: more ++ rest) := by
    intro next head
    cases head
    simp [endsWord, mark]
  rw [List.append_assoc, first found _ stops, Finds.mark mark second _ rest ends,
    List.reverse_append, List.append_assoc]

/-- The characters that end a bare word. -/
def wordEnds : List Char := [' ', '\t', '\n', '\r', '"', '[', ']', '{', '}', ',', ':']

theorem mem_wordEnds {character : Char} (ends : endsWord character = true) :
    character ∈ wordEnds := by
  rw [endsWord, Bool.or_eq_true, Bool.or_eq_true] at ends
  rcases ends with (space | quote) | mark
  · simp only [isSpace, Bool.or_eq_true, beq_iff_eq] at space
    rcases space with ((same | same) | same) | same <;> simp [wordEnds, same]
  · rw [beq_iff_eq] at quote
    rw [quote]
    decide
  · unfold mark? at mark
    split at mark <;> first | decide | cases mark

theorem run?_bare {word : List Char} (bare : ∀ character ∈ word, endsWord character = false)
    (found : List Token) (spelling rest : List Char) :
    run? ⟨.bare spelling, found⟩ (word ++ rest) =
      run? ⟨.bare (word.reverse ++ spelling), found⟩ rest := by
  induction word generalizing spelling with
  | nil => rfl
  | cons character word ih =>
      rw [List.forall_mem_cons] at bare
      have step : step ⟨.bare spelling, found⟩ character =
          some ⟨.bare (character :: spelling), found⟩ := by
        rw [Lexer.step]
        dsimp only
        rw [bare.1]
        rfl
      rw [List.cons_append, run?_cons, step, Option.bind_some, ih bare.2, List.reverse_cons,
        List.append_assoc, List.singleton_append]

/-- A bare word is a scalar, at the end of the text or before what ends it. -/
theorem Finds.word {word : List Char} {value : Json} (nonempty : word ≠ [])
    (bare : ∀ character ∈ word, endsWord character = false) (denotes : scalar? word = some value) :
    Finds word [.scalar value] := by
  intro found rest ends
  cases word with
  | nil => exact absurd rfl nonempty
  | cons first word =>
      rw [List.forall_mem_cons] at bare
      have other := bare.1
      simp only [endsWord, Bool.or_eq_false_iff, beq_eq_false_iff_ne, Option.isSome_eq_false_iff,
        Option.isNone_iff_eq_none] at other
      obtain ⟨⟨noSpace, noQuote⟩, noMark⟩ := other
      have step : step ⟨.between, found⟩ first = some ⟨.bare [first], found⟩ := by
        simp [Lexer.step, begin, noSpace, noQuote, noMark]
      rw [List.cons_append, run?_cons, step, Option.bind_some, run?_bare bare.2]
      cases rest with
      | nil => simp [run?, finish?, denotes]
      | cons next rest =>
          have stops := ends next rfl
          simp [run?_cons, Lexer.step, stops, denotes]

/-- The characters with an escape of one letter. -/
def shortEscaped : List Char := ['"', '\\', '\n', '\r', '\t', '\x08', '\x0c']

/-- How the machine keeps a character of a string. -/
def stringPart (character : Char) : StringPart :=
  if character.toNat < 0x20 ∧ character ∉ shortEscaped then .codeUnit character.toNat
  else .character character

theorem escapeChars_of_shortEscaped {character : Char} (special : character ∈ shortEscaped) :
    ∃ letter, escapeChars character = ['\\', letter] ∧ letter ≠ 'u' ∧
      escape? letter = some character := by
  have letters : ∀ character ∈ shortEscaped, ∃ letter ∈ ['"', '\\', 'n', 'r', 't', 'b', 'f'],
      escapeChars character = ['\\', letter] ∧ letter ≠ 'u' ∧
        escape? letter = some character := by decide
  obtain ⟨letter, _, escaped⟩ := letters character special
  exact ⟨letter, escaped⟩

theorem escapeChars_of_not_shortEscaped {character : Char} (plain : character ∉ shortEscaped) :
    escapeChars character =
      if character.toNat < 0x20 then
        ['\\', 'u', '0', '0', Nat.digitChar (character.toNat / 16),
          Nat.digitChar (character.toNat % 16)]
      else [character] := by
  simp only [shortEscaped, List.mem_cons, List.not_mem_nil, or_false, not_or] at plain
  simp only [escapeChars, plain, if_false]

/-- A character of a string is read from its escape. -/
theorem run?_escapeChars (character : Char) (parts : List StringPart) (found : List Token)
    (rest : List Char) :
    run? ⟨.quoted parts, found⟩ (escapeChars character ++ rest) =
      run? ⟨.quoted (stringPart character :: parts), found⟩ rest := by
  by_cases special : character ∈ shortEscaped
  · obtain ⟨letter, escaped, noUnit, means⟩ := escapeChars_of_shortEscaped special
    have kept : stringPart character = .character character := by simp [stringPart, special]
    rw [escaped, kept]
    simp [run?_cons, Lexer.step, noUnit, means]
  · rw [escapeChars_of_not_shortEscaped special]
    by_cases control : character.toNat < 0x20
    · have kept : stringPart character = .codeUnit character.toNat := by
        simp [stringPart, special, control]
      have zero : Text.digitIn? 16 '0' = some 0 := by decide
      have first : Text.digitIn? 16 (Nat.digitChar (character.toNat / 16)) =
          some (character.toNat / 16) := Text.digitIn?_digitChar (by omega) (by decide)
      have second : Text.digitIn? 16 (Nat.digitChar (character.toNat % 16)) =
          some (character.toNat % 16) := Text.digitIn?_digitChar (by omega) (by decide)
      rw [if_pos control, kept]
      simp [run?_cons, Lexer.step, zero, first, second, Nat.div_add_mod']
    · have kept : stringPart character = .character character := by simp [stringPart, control]
      have other : character ≠ '"' ∧ character ≠ '\\' := by
        simp only [shortEscaped, List.mem_cons, not_or] at special
        exact ⟨special.1, special.2.1⟩
      rw [if_neg control, kept]
      simp [run?_cons, Lexer.step, other.1, other.2, control]

theorem run?_flatMap_escapeChars (text : List Char) (parts : List StringPart)
    (found : List Token) (rest : List Char) :
    run? ⟨.quoted parts, found⟩ (text.flatMap escapeChars ++ rest) =
      run? ⟨.quoted (text.reverse.map stringPart ++ parts), found⟩ rest := by
  induction text generalizing parts with
  | nil => rfl
  | cons character text ih =>
      rw [List.flatMap_cons, List.append_assoc, run?_escapeChars, ih]
      simp

theorem joinParts_stringPart (backwards joined : List Char) :
    joinParts none joined (backwards.map stringPart) = some (backwards.reverse ++ joined) := by
  induction backwards generalizing joined with
  | nil => rfl
  | cons character backwards ih =>
      rw [List.map_cons, List.reverse_cons, List.append_assoc, List.singleton_append]
      by_cases control : character.toNat < 0x20 ∧ character ∉ shortEscaped
      · have kept : stringPart character = .codeUnit character.toNat := if_pos control
        have single : isTrailing character.toNat = false ∧ isLeading character.toNat = false := by
          simp only [isTrailing, isLeading, Bool.and_eq_false_iff, decide_eq_false_iff_not]
          omega
        rw [kept, joinParts, single.1, single.2, Char.ofNat_toNat]
        exact ih (character :: joined)
      · have kept : stringPart character = .character character := if_neg control
        rw [kept, joinParts]
        exact ih (character :: joined)

/-- A string is one token. -/
theorem Finds.text (content : Option String) : Finds (textChars content) [.text content] := by
  intro found rest _
  cases content with
  | none => rfl
  | some content =>
      have joined := joinParts_stringPart content.toList.reverse []
      rw [List.reverse_reverse, List.append_nil] at joined
      have opens : step ⟨.between, found⟩ '"' = some ⟨.quoted [], found⟩ := rfl
      have closes : step ⟨.quoted (content.toList.reverse.map stringPart), found⟩ '"' =
          some ⟨.between, .text (some content) :: found⟩ := by
        simp only [Lexer.step, if_true, joined, Option.map_some, String.ofList_toList]
      rw [textChars, stringChars, List.cons_append, List.cons_append, List.append_assoc, run?_cons,
        opens, Option.bind_some, run?_flatMap_escapeChars, List.append_nil, List.singleton_append,
        run?_cons, closes]
      rfl

/-- The characters of numbers. -/
def IsNumeric (character : Char) : Prop := character.isDigit = true ∨ character ∈ ['-', '.', 'e']

theorem isNumeric_toDigits (number : Nat) :
    ∀ character ∈ Nat.toDigits 10 number, IsNumeric character := by
  intro character member
  exact .inl (Text.isDigit_of_mem_toDigits member)

theorem isNumeric_signChars (negative : Bool) :
    ∀ character ∈ signChars negative, IsNumeric character := by
  intro character member
  have sign : ∀ negative, ∀ character ∈ signChars negative, character ∈ ['-', '.', 'e'] := by
    decide
  exact .inr (sign negative character member)

theorem isNumeric_pointed (coefficient places : Nat) :
    ∀ character ∈ Decimal.pointed coefficient places, IsNumeric character := by
  intro character member
  obtain ⟨whole, fraction, written, value, _⟩ := pointed_eq coefficient places
  have digits := Text.isDigit_of_readDigits? value
  rw [written, List.mem_append] at member
  rcases member with front | behind
  · exact .inl (digits character (List.mem_append_left _ front))
  · split at behind
    next => cases behind
    next =>
        rcases List.mem_cons.mp behind with point | behind
        · exact .inr (by simp [point])
        · exact .inl (digits character (List.mem_append_right _ behind))

theorem isNumeric_exponentChars (exponent : Int) :
    ∀ character ∈ exponentChars exponent, IsNumeric character := by
  rw [exponentChars, List.cons_append, List.forall_mem_cons, List.forall_mem_append]
  exact ⟨.inr (by decide), isNumeric_signChars _, isNumeric_toDigits _⟩

theorem isNumeric_decimalChars (decimal : Decimal) :
    ∀ character ∈ decimalChars decimal, IsNumeric character := by
  unfold decimalChars
  dsimp only
  rw [List.forall_mem_append]
  refine ⟨isNumeric_signChars _, ?_⟩
  split
  next => exact isNumeric_pointed _ _
  next =>
      split
      next => exact isNumeric_pointed _ _
      next => exact List.forall_mem_append.mpr ⟨isNumeric_pointed _ _, isNumeric_exponentChars _⟩

/-- A word of such characters is no literal, so it is the number that it is read as. -/
theorem Finds.number {word : List Char} {numeral : Numeral}
    (numeric : ∀ character ∈ word, IsNumeric character) (read : numeral? word = some numeral) :
    Finds word [.scalar (.number numeral)] := by
  have nonempty : word ≠ [] := by
    intro none
    rw [none] at read
    cases read
  have literal : ∀ {other : List Char}, (∃ letter ∈ ['n', 't', 'f'], letter ∈ other) →
      word ≠ other := by
    intro other given same
    obtain ⟨letter, special, member⟩ := given
    have outside : ∀ letter ∈ ['n', 't', 'f'],
        ¬ (letter.isDigit = true ∨ letter ∈ ['-', '.', 'e']) := by decide
    exact outside letter special (numeric letter (same ▸ member))
  apply Finds.word nonempty
  · intro character member
    rw [Bool.eq_false_iff]
    intro ends
    have outside : ∀ mark ∈ wordEnds, ¬ (mark.isDigit = true ∨ mark ∈ ['-', '.', 'e']) := by
      decide
    exact outside character (mem_wordEnds ends) (numeric character member)
  · rw [scalar?, if_neg (literal (by decide)), if_neg (literal (by decide)),
      if_neg (literal (by decide)), read]
    rfl

theorem Finds.items {items : List Json} (each : ∀ item ∈ items, Finds item.chars item.tokens) :
    Finds (itemsChars items) (itemsTokens items) := by
  induction items with
  | nil => exact .nil
  | cons item items ih =>
      rw [List.forall_mem_cons] at each
      cases items with
      | nil => exact each.1
      | cons next items => exact each.1.append rfl (ih each.2)

theorem Finds.members {members : List (Option String × Json)}
    (each : ∀ member ∈ members, Finds member.2.chars member.2.tokens) :
    Finds (membersChars members) (membersTokens members) := by
  induction members with
  | nil => exact .nil
  | cons member members ih =>
      rw [List.forall_mem_cons] at each
      have own := (Finds.text member.1).append (show mark? ':' = some .colon from rfl) each.1
      cases members with
      | nil => exact own
      | cons next members => exact own.append rfl (ih each.2)

end Lexer

/-- A value that is written is cut into its tokens, wherever it stands. -/
theorem finds_chars {depth : Nat} {value : Json} (writable : value.Writable depth) :
    Lexer.Finds value.chars value.tokens := by
  induction writable with
  | null => exact .word (by decide) (by decide) rfl
  | bool value =>
      cases value with
      | false => exact .word (by decide) (by decide) rfl
      | true => exact .word (by decide) (by decide) rfl
  | natural small => exact .number (Lexer.isNumeric_toDigits _) (numeral?_toDigits small)
  | @single depth value finite =>
      cases value with
      | finite negative magnitude fits =>
          exact .number (Lexer.isNumeric_decimalChars _) (numeral?_decimalOf negative fits)
      | nan negative payload inRange => cases finite
      | infinite negative => cases finite
  | string content => exact .text (some content)
  | array _ ih => exact .mark rfl ((Lexer.Finds.items ih).append rfl .nil)
  | object _ _ ih =>
      refine .mark rfl (Lexer.Finds.append (Lexer.Finds.members ?_) rfl .nil)
      intro member listed
      obtain ⟨given, within, same⟩ := List.mem_map.mp listed
      subst same
      exact ih given within

/-- A printed value is cut into its tokens. -/
theorem tokens?_chars {depth : Nat} {value : Json} (writable : value.Writable depth) :
    tokens? value.chars = some value.tokens := by
  have whole := finds_chars writable [] [] (by intro next head; cases head)
  rw [List.append_nil, List.append_nil] at whole
  have ended : Lexer.run? ⟨.between, value.tokens.reverse⟩ [] = some value.tokens :=
    congrArg some (List.reverse_reverse value.tokens)
  exact whole.trans ended

end LimbAnimation.Json
