import Mathlib.Logic.Relation
import FeedGraph.Proofs.Schema.Redefinitions

/-!
# Closure: types that refer to types

Fields, arguments and input fields refer to types by name, and a schema is refused if one of them is
not defined. The main statement is `Schema.closed_of_ofDefinitions`: in a schema that is accepted
every such name is defined, that of a scalar that the document defines again included.

What a value of a type holds, it holds at any depth: `Schema.Holds` goes from an input object to the
types of its fields, and in an accepted schema whatever can be reached by it is defined
(`Schema.Closed.reached`).
-/

namespace FeedGraph

open Relation

namespace Schema

/-- Values of a type hold values of another one: it is the type of an input field, inside all
lists. -/
def Holds (schema : Schema) (outer inner : String) : Prop :=
  ∃ definition fields, schema.type? outer = some definition ∧ definition.kind = .input fields ∧
    ∃ field ∈ fields, field.type.underlying = inner

/-- Another schema has the same types under a name and under those of all that values of the type
hold. It is what coercion at the type can see of a schema. -/
def SameWithin (schema other : Schema) (name : String) : Prop :=
  ∀ reached, ReflTransGen schema.Holds name reached → other.type? reached = schema.type? reached

section

variable {schema other : Schema} {name : String}

theorem SameWithin.refl : SameWithin schema schema name := fun _ _ => rfl

theorem SameWithin.type_eq (h : SameWithin schema other name) :
    other.type? name = schema.type? name :=
  h name .refl

theorem SameWithin.reached (h : SameWithin schema other name) {inner : String}
    (hinner : ReflTransGen schema.Holds name inner) : SameWithin schema other inner :=
  fun reached hreached => h reached (hinner.trans hreached)

theorem holds_of_field {definition : TypeDef} {fields : List InputDef}
    (htype : schema.type? name = some definition) (hkind : definition.kind = .input fields)
    {field : InputDef} (hmem : field ∈ fields) : schema.Holds name field.type.underlying :=
  ⟨definition, fields, htype, hkind, field, hmem, rfl⟩

end

/-! ## References that are looked up -/

/-- Every type that a field, an argument or an input field refers to is defined. -/
structure Closed (schema : Schema) : Prop where
  field : ∀ {type name definition}, schema.field? type name = some definition →
    schema.defines definition.type.underlying = true
  argument : ∀ {type name definition}, schema.field? type name = some definition →
    ∀ argument ∈ definition.arguments, schema.defines argument.type.underlying = true
  input : ∀ {outer inner}, schema.Holds outer inner → schema.defines inner = true

/-- In such a schema, what values of a type hold at any depth is defined if the type is: the last
step of the way goes to the type of an input field. -/
theorem Closed.reached {schema : Schema} (h : schema.Closed) {name reached : String}
    (hname : schema.defines name = true) (hreached : ReflTransGen schema.Holds name reached) :
    schema.defines reached = true := by
  rcases hreached.cases_tail with rfl | ⟨_, -, hlast⟩
  · exact hname
  · exact h.input hlast

theorem mem_references {definition : TypeDef} {field : FieldDef} {reference : Reference}
    (hfield : field ∈ definition.kind.fields)
    (hreference : reference ∈ fieldReferences definition.name field) :
    reference ∈ references definition := by
  have hmem := List.mem_flatMap_of_mem hfield hreference
  rw [references]
  cases hkind : definition.kind with
  | input fields =>
    rw [hkind] at hfield
    cases hfield
  | _ => rwa [hkind] at hmem

/-- `danglingReference?` goes through the references of all types; those of a field, an argument and
an input field are among them. -/
theorem closed_of_danglingReference? {schema : Schema} (h : schema.danglingReference? = none) :
    schema.Closed := by
  have hdefined : ∀ definition ∈ schema.types, ∀ reference ∈ references definition,
      schema.defines reference.type = true := by
    intro definition hmem reference hreference
    have hnot := List.find?_eq_none.mp h reference (List.mem_flatMap_of_mem hmem hreference)
    simpa using hnot
  have hfield : ∀ {type name definition}, schema.field? type name = some definition →
      ∃ owner ∈ schema.types, definition ∈ owner.kind.fields := by
    intro type name definition hdefinition
    obtain ⟨owner, howner, hfind⟩ := Option.bind_eq_some_iff.mp hdefinition
    exact ⟨owner, List.mem_of_find?_eq_some howner, List.mem_of_find?_eq_some hfind⟩
  constructor
  case field =>
    intro type name definition hdefinition
    obtain ⟨owner, howner, hmem⟩ := hfield hdefinition
    exact hdefined owner howner _ (mem_references hmem List.mem_cons_self)
  case argument =>
    intro type name definition hdefinition argument hargument
    obtain ⟨owner, howner, hmem⟩ := hfield hdefinition
    exact hdefined owner howner _
      (mem_references hmem (List.mem_cons_of_mem _ (List.mem_map_of_mem hargument)))
  case input =>
    rintro outer inner ⟨definition, fields, htype, hkind, field, hmem, rfl⟩
    refine hdefined definition (List.mem_of_find?_eq_some htype)
      ⟨field.type.underlying, s!"{definition.name}.{field.name}"⟩ ?_
    rw [references, hkind]
    exact List.mem_map_of_mem hmem

/-- An accepted schema refers to nothing that it does not define, as references are looked up when
all definitions are added. -/
theorem closed_of_ofDefinitions {definitions : List SchemaDefinition} {schema : Schema}
    (h : ofDefinitions definitions = .ok schema) : schema.Closed := by
  cases hadded : definitions.foldlM add initial with
  | error error =>
    rw [ofDefinitions, hadded] at h
    cases h
  | ok built =>
    rw [ofDefinitions_of_added hadded] at h
    cases hdangling : built.danglingReference? with
    | some reference =>
      rw [hdangling] at h
      cases h
    | none =>
      rw [hdangling] at h
      obtain rfl := Except.ok.inj h
      exact closed_of_danglingReference? hdangling

end Schema

end FeedGraph
