import Mathlib.Data.List.Basic
import LimbAnimation.Json.Form
import LimbAnimation.Proofs.Json.Laws
import LimbAnimation.Proofs.Numbers

/-!
# Faithful JSON forms

A value comes back from its form when its parts do, and then from the text of the form, too,
whatever lawful layer of texts is used.  A part that may be missing must not look like a
missing one: its form must not be null.
-/

namespace LimbAnimation

namespace Json

theorem namedMembers?_map (members : List (String × Json)) :
    namedMembers? (members.map fun (name, value) => (some name, value)) = some members := by
  induction members with
  | nil => rfl
  | cons member members ih =>
      rw [namedMembers?] at ih
      rw [namedMembers?, List.map_cons, List.mapM_cons, ih]
      rfl

/-- A name that no other member has gives the value of its member. -/
theorem field?_of_mem {members : List (String × Json)} (distinct : (members.map Prod.fst).Nodup)
    {name : String} {value : Json} (member : (name, value) ∈ members) :
    field? members name = some (.given value) := by
  have only : members.filter (fun member => decide (member.1 = name)) = [(name, value)] := by
    induction members with
    | nil => cases member
    | cons first members ih =>
        rw [List.map_cons, List.nodup_cons] at distinct
        rw [List.filter_cons]
        cases List.mem_cons.mp member with
        | inl here =>
            subst here
            rw [if_pos (decide_eq_true rfl), List.filter_eq_nil_iff.mpr]
            intro other later same
            have named : other.1 = name := of_decide_eq_true same
            exact distinct.1 (List.mem_map.mpr ⟨other, later, named⟩)
        | inr later =>
            rw [if_neg, ih distinct.2 later]
            intro same
            have named : name = first.1 := (of_decide_eq_true same).symm
            exact distinct.1 (List.mem_map.mpr ⟨_, later, named⟩)
  rw [field?, only]

/-- A record that is written with all of its fields has them when it is read. -/
theorem fields?_ofMembers {names : List String} {members : List (String × Json)}
    (distinct : names.Nodup) (named : members.map Prod.fst = names) :
    (ofMembers members).fields? names = some (members.map fun member => .given member.2) := by
  subst named
  have found : ∀ chosen : List (String × Json), chosen ⊆ members →
      (chosen.map Prod.fst).mapM (field? members) =
        some (chosen.map fun member => .given member.2) := by
    intro chosen
    induction chosen with
    | nil =>
        intro _
        rfl
    | cons member rest ih =>
        intro within
        rw [List.cons_subset] at within
        rw [List.map_cons, List.mapM_cons, field?_of_mem distinct within.1, ih within.2]
        rfl
  rw [ofMembers, fields?, namedMembers?_map]
  exact found members (List.Subset.refl members)

theorem writable_ofMembers {depth : Nat} {names : List String} {members : List (String × Json)}
    (named : members.map Prod.fst = names) (distinct : names.Nodup)
    (writable : members.Forall fun member => member.2.Writable depth) :
    (ofMembers members).Writable (depth + 1) :=
  .object (named ▸ distinct) (List.forall_iff_forall_mem.mp writable)

theorem writable_choice {depth : Nat} {content : Json} (name : String)
    (writable : content.Writable depth) : (choice name content).Writable (depth + 1) :=
  writable_ofMembers rfl (List.pairwise_singleton _ name) writable

theorem naturalBelow?_natural {number limit : Nat} (small : number < limit) :
    (natural number).naturalBelow? limit = some number := if_pos small

end Json

/-- A value whose form is read as the value, and can be written with at most so many containers
within each other. -/
structure Faithful {α : Type} [JsonForm α] (depth : Nat) (value : α) : Prop where
  writable : (toJson value).Writable depth
  reads : ofJson? (toJson value) = some value

/-- A faithful value whose form is not null. -/
structure Solid {α : Type} [JsonForm α] (depth : Nat) (value : α) : Prop
    extends Faithful depth value where
  notNull : toJson value ≠ .null

namespace JsonText

variable (layer : JsonText)

/-- What is read from the text of a value. -/
def reread? {α : Type} [JsonForm α] (value : α) : Option α :=
  (layer.read? (layer.print (toJson value))).bind ofJson?

/-- Every value of a type comes back from its text, as long as its singles are finite and its
indices have at most 64 bits. -/
def ReadsBack (α : Type) [JsonForm α] [HasNumbers α] : Prop :=
  ∀ value : α, AllFinite value → AllIndexed value → layer.reread? value = some value

end JsonText

section

variable {α : Type} [JsonForm α] {depth : Nat}

theorem Faithful.reread {value : α} (faithful : Faithful JsonText.deepest value)
    {layer : JsonText} (lawful : layer.Lawful) : layer.reread? value = some value := by
  have kept : layer.read? (layer.print (toJson value)) = some (toJson value) :=
    lawful.keeps faithful.writable (Nat.le_refl _)
  rw [JsonText.reread?, kept]
  exact faithful.reads

theorem Faithful.required {value : α} (faithful : Faithful depth value) :
    (Json.Field.given (toJson value)).required? = some value := faithful.reads

theorem Faithful.optional {value : Option α} (faithful : Faithful depth value) :
    (Json.Field.given (toJson value)).optional? = some value := faithful.reads

theorem Faithful.orDefault {value : α} (faithful : Faithful depth value) (default : α) :
    (Json.Field.given (toJson value)).orDefault? default = some value := faithful.reads

section

variable {value : α} {members : List (String × Json)} {build : List Json.Field → Option α}
variable {names : List String}

/-- A value comes back when it can be built from the fields that it is written with. -/
theorem Solid.built
    (reading : ofJson? (toJson value) = ((Json.ofMembers members).fields? names).bind build)
    (named : members.map Prod.fst = names) (distinct : names.Nodup)
    (writable : (toJson value).Writable depth) (notNull : toJson value ≠ .null)
    (built : build (members.map fun member => .given member.2) = some value) :
    Solid depth value where
  writable := writable
  reads := by
    rw [reading, Json.fields?_ofMembers distinct named]
    exact built
  notNull := notNull

variable (names)

theorem Solid.record (reading : ∀ json : Json, ofJson? json = (json.fields? names).bind build)
    (form : toJson value = .ofMembers members) (named : members.map Prod.fst = names)
    (distinct : names.Nodup) (writable : members.Forall fun member => member.2.Writable depth)
    (built : build (members.map fun member => .given member.2) = some value) :
    Solid (depth + 1) value := by
  apply Solid.built _ named distinct _ _ built
  · rw [form, reading]
  · rw [form]
    exact Json.writable_ofMembers named distinct writable
  · intro null
    cases form.symm.trans null

theorem Solid.choice (name : String)
    (reading : ∀ content : Json,
      ofJson? (Json.choice name content) = (content.fields? names).bind build)
    (form : toJson value = .choice name (.ofMembers members))
    (named : members.map Prod.fst = names) (distinct : names.Nodup)
    (writable : members.Forall fun member => member.2.Writable depth)
    (built : build (members.map fun member => .given member.2) = some value) :
    Solid (depth + 2) value := by
  apply Solid.built _ named distinct _ _ built
  · rw [form, reading]
  · rw [form]
    exact Json.writable_choice name (Json.writable_ofMembers named distinct writable)
  · intro null
    cases form.symm.trans null

end

theorem Solid.list {values : List α} (solid : ∀ {value}, value ∈ values → Solid depth value) :
    Solid (depth + 1) values where
  writable := by
    apply Json.Writable.array
    intro item member
    obtain ⟨value, listed, same⟩ := List.mem_map.mp member
    subst same
    exact (solid listed).writable
  reads := by
    change (values.map toJson).mapM ofJson? = some values
    induction values with
    | nil => rfl
    | cons value values ih =>
        have later := ih fun member => solid (.tail _ member)
        rw [List.map_cons, List.mapM_cons, (solid (.head _)).reads, later]
        rfl
  notNull := by
    intro null
    cases null

theorem Faithful.option {value : Option α}
    (solid : ∀ {content}, content ∈ value → Solid depth content) : Faithful depth value := by
  cases value with
  | none => exact ⟨.null, rfl⟩
  | some content =>
      have solid := solid (Option.mem_some_self content)
      refine ⟨solid.writable, ?_⟩
      have given : ofJson? (toJson content) = (some content : Option α) := solid.reads
      have notNull := solid.notNull
      change ofJson? (toJson content) = _
      generalize toJson content = json at given notNull
      cases json with
      | null => exact absurd rfl notNull
      | _ => exact congrArg (Option.map some) given

end

variable {depth : Nat}

theorem Solid.single {value : Single} (finite : value.isFinite = true) : Solid depth value := by
  have form : toJson value = .single value := if_pos finite
  constructor
  · constructor
    · rw [form]
      exact .single finite
    · rw [form]
      rfl
  · rw [form]
    intro null
    cases null

theorem Solid.bool (value : Bool) : Solid depth value :=
  ⟨⟨.bool value, rfl⟩, by intro null; cases null⟩

theorem Solid.string (value : String) : Solid depth value :=
  ⟨⟨.string value, rfl⟩, by intro null; cases null⟩

theorem Solid.word (value : UInt32) : Solid depth value := by
  have small : value.toNat < 2 ^ 32 := value.toNat_lt
  refine ⟨⟨?_, ?_⟩, ?_⟩
  · exact .natural (Nat.lt_trans small (by decide))
  · change ((Json.natural value.toNat).naturalBelow? (2 ^ 32)).map UInt32.ofNat = some value
    rw [Json.naturalBelow?_natural small, Option.map_some, UInt32.ofNat_toNat]
  · intro null
    cases null

end LimbAnimation
