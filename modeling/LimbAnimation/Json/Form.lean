import LimbAnimation.Json.Value

/-!
# JSON forms

Types whose values are written as JSON and read back.  Numbers are read strictly:
an integer has to be written as one, while a single takes any number.  Records
are objects with named fields, or arrays of their fields in order.
-/

namespace LimbAnimation

/-- A type whose values have a JSON form. -/
class JsonForm (α : Type) where
  /-- The form of a value. -/
  toJson : α → Json
  /-- The value of a form. -/
  ofJson? : Json → Option α

export JsonForm (toJson ofJson?)

namespace Json

/-- A natural number below a limit, written as an integer. -/
def naturalBelow? (limit : Nat) : Json → Option Nat
  | .number (.integer false size) => if size < limit then some size else none
  | _ => none

end Json

/-- Only a finite single is written as a number. -/
instance : JsonForm Single where
  toJson value := if value.isFinite then .single value else .null
  ofJson?
    | .number numeral => numeral.single?
    | _ => none

instance : JsonForm Bool where
  toJson := .bool
  ofJson?
    | .bool value => some value
    | _ => none

instance : JsonForm String where
  toJson := .string
  ofJson?
    | .text content => content
    | _ => none

instance : JsonForm UInt32 where
  toJson number := .natural number.toNat
  ofJson? json := (json.naturalBelow? (2 ^ (32 : Nat))).map UInt32.ofNat

instance {α : Type} [JsonForm α] : JsonForm (List α) where
  toJson items := .array (items.map toJson)
  ofJson?
    | .array items => items.mapM ofJson?
    | _ => none

instance {α : Type} [JsonForm α] : JsonForm (Option α) where
  toJson
    | some value => toJson value
    | none => .null
  ofJson?
    | .null => some none
    | json => (ofJson? json).map some

namespace Json

inductive Field where
  | given (value : Json)
  /-- An object that does not have the field. -/
  | absent
  /-- An array that ends before the field. -/
  | cut

/-- The members of an object when all of their names are texts. -/
def namedMembers? (members : List (Option String × Json)) : Option (List (String × Json)) :=
  members.mapM fun (name, value) => name.map fun name => (name, value)

/-- The field of an object under a name, which at most one member may have. -/
def field? (members : List (String × Json)) (name : String) : Option Field :=
  match members.filter (·.1 = name) with
  | [] => some .absent
  | [(_, value)] => some (.given value)
  | _ => none

/-- The fields of an array in order; there may be fewer than named. -/
def fieldsInOrder? : List String → List Json → Option (List Field)
  | [], [] => some []
  | [], _ :: _ => none
  | _ :: names, [] => (fieldsInOrder? names []).map (.cut :: ·)
  | _ :: names, item :: items => (fieldsInOrder? names items).map (.given item :: ·)

/-- The named fields of a record; further members of an object are ignored. -/
def fields? (names : List String) : Json → Option (List Field)
  | .object members => do
    let members ← namedMembers? members
    names.mapM (field? members)
  | .array items => fieldsInOrder? names items
  | _ => none

def Field.required? {α : Type} [JsonForm α] : Field → Option α
  | .given value => ofJson? value
  | _ => none

def Field.optional? {α : Type} [JsonForm α] : Field → Option (Option α)
  | .given value => ofJson? value
  | .absent => some none
  | .cut => none

def Field.orDefault? {α : Type} [JsonForm α] (default : α) : Field → Option α
  | .given value => ofJson? value
  | _ => some default

/-- A choice: its name, and its content if there is one. -/
def choice? : Json → Option (String × Option Json)
  | .text (some name) => some (name, none)
  | .object [(some name, content)] => some (name, some content)
  | _ => none

def choice (name : String) (content : Json) : Json := .ofMembers [(name, content)]

def isBare : Option Json → Bool
  | none => true
  | some .null => true
  | _ => false

end Json

end LimbAnimation
