import LimbAnimation.Json.Token

/-!
# Reading JSON

Values are built from tokens by a machine that keeps the containers it has
entered and what it needs next.
-/

namespace LimbAnimation.Json

/-- A container with a gap for the value that is being built; what came earlier
stands last part first. -/
inductive Container where
  | items (earlier : List Json)
  | members (earlier : List (Option String × Json)) (name : Option String)

inductive Builder.Need where
  /-- A value. -/
  | value
  /-- A value or the end of the array. -/
  | firstItem
  /-- A member name or the end of the object. -/
  | firstName
  /-- A member name. -/
  | name (earlier : List (Option String × Json))
  /-- The colon after a member name. -/
  | colon (earlier : List (Option String × Json)) (name : Option String)
  /-- Nothing more for this value: a comma or the end of its container. -/
  | done (value : Json)

/-- The containers entered, the innermost first, and what is needed next. -/
structure Builder where
  entered : List Container
  need : Builder.Need

namespace Builder

def start : Builder := ⟨[], .value⟩

def open? (entered : List Container) : Token → Option Builder
  | .scalar value => some ⟨entered, .done value⟩
  | .text content => some ⟨entered, .done (.text content)⟩
  | .openArray => some ⟨entered, .firstItem⟩
  | .openObject => some ⟨entered, .firstName⟩
  | _ => none

def close? (entered : List Container) (value : Json) : Token → Option Builder
  | .comma =>
    match entered with
    | .items earlier :: outer => some ⟨.items (value :: earlier) :: outer, .value⟩
    | .members earlier name :: outer => some ⟨outer, .name ((name, value) :: earlier)⟩
    | [] => none
  | .closeArray =>
    match entered with
    | .items earlier :: outer => some ⟨outer, .done (.array (value :: earlier).reverse)⟩
    | _ => none
  | .closeObject =>
    match entered with
    | .members earlier name :: outer =>
      some ⟨outer, .done (.object ((name, value) :: earlier).reverse)⟩
    | _ => none
  | _ => none

/-- Reads one token; none when no value goes on that way. -/
def step (builder : Builder) (token : Token) : Option Builder :=
  match builder.need with
  | .value => open? builder.entered token
  | .firstItem =>
    match token with
    | .closeArray => some ⟨builder.entered, .done (.array [])⟩
    | _ => open? (.items [] :: builder.entered) token
  | .firstName =>
    match token with
    | .closeObject => some ⟨builder.entered, .done (.object [])⟩
    | .text name => some ⟨builder.entered, .colon [] name⟩
    | _ => none
  | .name earlier =>
    match token with
    | .text name => some ⟨builder.entered, .colon earlier name⟩
    | _ => none
  | .colon earlier name =>
    match token with
    | .colon => some ⟨.members earlier name :: builder.entered, .value⟩
    | _ => none
  | .done value => close? builder.entered value token

def finish? (builder : Builder) : Option Json :=
  match builder.entered, builder.need with
  | [], .done value => some value
  | _, _ => none

end Builder

def ofTokens? (tokens : List Token) : Option Json :=
  (tokens.foldlM Builder.step Builder.start).bind Builder.finish?

def read? (text : String) : Option Json :=
  (tokens? text.toList).bind ofTokens?

end LimbAnimation.Json
