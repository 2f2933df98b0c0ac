import Mathlib.Algebra.Group.Nat.Defs
import LimbAnimation.Json.Value

/-!
# Laws of layers of texts

`Json.Writable` describes the values that are ever written.  A lawful layer reads back each
simple one of them from what it prints, and each array and object whose parts it reads back.
From these laws it reads back every one of them.
-/

namespace LimbAnimation

/-- A value to be written, with at most so many containers within each other: its numbers are
natural numbers of 64 bits or finite singles, its strings are texts, and the names of an object
differ. -/
inductive Json.Writable : (depth : Nat) → Json → Prop where
  | null {depth : Nat} : Writable depth .null
  | bool {depth : Nat} (value : Bool) : Writable depth (.bool value)
  | natural {depth size : Nat} : size < 2 ^ 64 → Writable depth (.natural size)
  | single {depth : Nat} {value : Single} : value.isFinite = true → Writable depth (.single value)
  | string {depth : Nat} (content : String) : Writable depth (.string content)
  | array {depth : Nat} {items : List Json} :
      (∀ item ∈ items, Writable depth item) → Writable (depth + 1) (.array items)
  | object {depth : Nat} {members : List (String × Json)} :
      (members.map Prod.fst).Nodup → (∀ member ∈ members, Writable depth member.2) →
      Writable (depth + 1) (.ofMembers members)

namespace JsonText

/-- At most so many containers may stand within each other. -/
def deepest : Nat := 127

section

variable (layer : JsonText)

/-- The layer reads a value from what it prints of it. -/
def Keeps (json : Json) : Prop := layer.read? (layer.print json) = some json

/-- The layer keeps the simple values, and a container that is not too deep when it keeps
what the container holds. -/
structure Lawful : Prop where
  null : layer.Keeps .null
  bools : ∀ value, layer.Keeps (.bool value)
  naturals : ∀ {size}, size < 2 ^ 64 → layer.Keeps (.natural size)
  /-- The text of a finite single is read as that single. -/
  singles : ∀ {value : Single}, value.isFinite = true → layer.Keeps (.single value)
  strings : ∀ content, layer.Keeps (.string content)
  arrays : ∀ {depth items}, depth < deepest → (∀ item ∈ items, item.Writable depth) →
    (∀ item ∈ items, layer.Keeps item) → layer.Keeps (.array items)
  objects : ∀ {depth} {members : List (String × Json)}, depth < deepest →
    (members.map Prod.fst).Nodup → (∀ member ∈ members, member.2.Writable depth) →
    (∀ member ∈ members, layer.Keeps member.2) → layer.Keeps (.ofMembers members)

end

/-- A lawful layer reads back all that is written. -/
theorem Lawful.keeps {layer : JsonText} (lawful : layer.Lawful) {depth : Nat} {json : Json}
    (writable : json.Writable depth) (shallow : depth ≤ deepest) : layer.Keeps json := by
  induction writable with
  | null => exact lawful.null
  | bool value => exact lawful.bools value
  | natural small => exact lawful.naturals small
  | single finite => exact lawful.singles finite
  | string content => exact lawful.strings content
  | array each ih =>
      apply lawful.arrays shallow each
      intro item member
      exact ih item member (Nat.le_of_succ_le shallow)
  | object distinct each ih =>
      apply lawful.objects shallow distinct each
      intro member listed
      exact ih member listed (Nat.le_of_succ_le shallow)

end JsonText

end LimbAnimation
