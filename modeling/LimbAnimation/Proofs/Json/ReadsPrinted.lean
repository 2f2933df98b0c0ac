import LimbAnimation.Json.Reader
import LimbAnimation.Proofs.Json.Lexing

/-!
# Reading printed values

The tokens of a value are built into the value again, so what has been printed is read
back.
-/

namespace LimbAnimation

namespace Json

namespace Builder

/-- The value that is built when some tokens are all that is left. -/
def run? (builder : Builder) (tokens : List Token) : Option Json :=
  (tokens.foldlM step builder).bind finish?

theorem run?_cons (builder : Builder) (token : Token) (rest : List Token) :
    builder.run? (token :: rest) = (builder.step token).bind fun next => next.run? rest := by
  rw [run?, List.foldlM_cons, Option.bind_eq_bind, Option.bind_assoc]
  rfl

/-- No value begins with the end of an array. -/
theorem run?_firstItem (value : Json) (entered : List Container) (rest : List Token) :
    run? ⟨entered, .firstItem⟩ (value.tokens ++ rest) =
      run? ⟨.items [] :: entered, .value⟩ (value.tokens ++ rest) := by
  cases value <;> rfl

/-- A name and a colon lead into a member. -/
theorem run?_name (earlier : List (Option String × Json)) (entered : List Container)
    (name : Option String) (rest : List Token) :
    run? ⟨entered, .name earlier⟩ (.text name :: .colon :: rest) =
      run? ⟨.members earlier name :: entered, .value⟩ rest := rfl

end Builder

open Builder

theorem itemsTokens_cons_cons (item next : Json) (items : List Json) :
    itemsTokens (item :: next :: items) =
      item.tokens ++ .comma :: itemsTokens (next :: items) := rfl

theorem membersTokens_cons_cons (name : Option String) (value : Json)
    (next : Option String × Json) (members : List (Option String × Json)) :
    membersTokens ((name, value) :: next :: members) =
      .text name :: .colon :: (value.tokens ++ .comma :: membersTokens (next :: members)) := rfl

theorem exists_itemsTokens_eq (item : Json) (items : List Json) :
    ∃ more, itemsTokens (item :: items) = item.tokens ++ more := by
  cases items with
  | nil => exact ⟨[], (List.append_nil _).symm⟩
  | cons next items => exact ⟨_, itemsTokens_cons_cons item next items⟩

mutual

/-- Where a value is needed, its tokens give it. -/
theorem run?_tokens : ∀ (value : Json) (entered : List Container) (rest : List Token),
    run? ⟨entered, .value⟩ (value.tokens ++ rest) = run? ⟨entered, .done value⟩ rest
  | .null, _, _ => rfl
  | .bool _, _, _ => rfl
  | .number _, _, _ => rfl
  | .text _, _, _ => rfl
  | .array [], _, _ => rfl
  | .array (item :: items), entered, rest => by
      obtain ⟨more, cut⟩ := exists_itemsTokens_eq item items
      have built := run?_itemsTokens (item :: items) (List.cons_ne_nil _ _) [] entered rest
      rw [cut, List.append_assoc, ← run?_firstItem, ← List.append_assoc, ← cut] at built
      rw [tokens, List.cons_append, List.append_assoc, List.singleton_append, run?_cons]
      exact built
  | .object [], _, _ => rfl
  | .object ((name, value) :: members), entered, rest => by
      have built := run?_membersTokens ((name, value) :: members) (List.cons_ne_nil _ _) [] entered
        rest
      rw [tokens, List.cons_append, List.append_assoc, List.singleton_append, run?_cons]
      cases members with
      | nil => exact built
      | cons next members => exact built

theorem run?_itemsTokens : ∀ items : List Json, items ≠ [] →
    ∀ (earlier : List Json) (entered : List Container) (rest : List Token),
      run? ⟨.items earlier :: entered, .value⟩ (itemsTokens items ++ .closeArray :: rest) =
        run? ⟨entered, .done (.array (earlier.reverse ++ items))⟩ rest
  | [], nonempty, _, _, _ => absurd rfl nonempty
  | [item], _, earlier, entered, rest => by
      rw [itemsTokens, run?_tokens item, run?_cons, ← List.reverse_cons]
      rfl
  | item :: next :: items, _, earlier, entered, rest => by
      have later := run?_itemsTokens (next :: items) (List.cons_ne_nil _ _) (item :: earlier)
        entered rest
      rw [List.reverse_cons, List.append_assoc, List.singleton_append] at later
      rw [itemsTokens_cons_cons, List.append_assoc, List.cons_append, run?_tokens item, run?_cons,
        ← later]
      rfl

theorem run?_membersTokens : ∀ members : List (Option String × Json), members ≠ [] →
    ∀ (earlier : List (Option String × Json)) (entered : List Container) (rest : List Token),
      run? ⟨entered, .name earlier⟩ (membersTokens members ++ .closeObject :: rest) =
        run? ⟨entered, .done (.object (earlier.reverse ++ members))⟩ rest
  | [], nonempty, _, _, _ => absurd rfl nonempty
  | [(name, value)], _, earlier, entered, rest => by
      rw [membersTokens, List.cons_append, List.cons_append, run?_name, run?_tokens value,
        run?_cons, ← List.reverse_cons]
      rfl
  | (name, value) :: next :: members, _, earlier, entered, rest => by
      have later := run?_membersTokens (next :: members) (List.cons_ne_nil _ _)
        ((name, value) :: earlier) entered rest
      rw [List.reverse_cons, List.append_assoc, List.singleton_append] at later
      rw [membersTokens_cons_cons, List.cons_append, List.cons_append, List.append_assoc,
        List.cons_append, run?_name, run?_tokens value, run?_cons, ← later]
      rfl

end

/-- What is printed is read back. -/
theorem read?_print {depth : Nat} {value : Json} (writable : value.Writable depth) :
    read? value.print = some value := by
  have built : ofTokens? (value.tokens ++ []) = some value := run?_tokens value [] []
  rw [List.append_nil] at built
  rw [read?, print, String.toList_ofList, tokens?_chars writable, Option.bind_some, built]

end Json

namespace JsonText

/-- The plain layer keeps every value that is written, however deep. -/
theorem plain_keeps {depth : Nat} {value : Json} (writable : value.Writable depth) :
    plain.Keeps value := by
  change Json.read? value.print = some value
  exact Json.read?_print writable

theorem plain_lawful : plain.Lawful where
  null := plain_keeps (.null : Json.Writable 0 .null)
  bools value := plain_keeps (.bool value : Json.Writable 0 (.bool value))
  naturals small := plain_keeps (.natural small : Json.Writable 0 (.natural _))
  singles finite := plain_keeps (.single finite : Json.Writable 0 (.single _))
  strings content := plain_keeps (.string content : Json.Writable 0 (.string content))
  arrays _ each _ := plain_keeps (.array each)
  objects _ distinct each _ := plain_keeps (.object distinct each)

end JsonText

end LimbAnimation
