import Mathlib.Data.List.Forall2
import FeedGraph.Plan.Coercion
import FeedGraph.Proofs.Document.Variables

/-!
# Coercibility: which literals stand for which values of a type

`Coerces schema type literal value` says that a literal is coercible to a type and which value it
then stands for. The rules are those for people who write requests: they do not look at how literals
are read, and no order of steps is fixed by them.

Input objects leave fields out that have defaults, and defaults are coerced in turn. So there are
two relations, each of which needs the other. `CoercesWith` has the rules for literals and leaves
open what defaults come to; `DefaultCoerces` is the least relation that fits it
(`DefaultCoerces.least`): a default that can only be followed for ever comes to no value.
-/

namespace FeedGraph

/-! ## Declarations -/

/-- Every name is declared once, and none of them is that under which clients send the name of a
type back. The latter is dropped from what is supplied, so that a declaration of it could not be
given a value. -/
structure DeclaredOnce (definitions : List InputDef) : Prop where
  /-- no name is declared twice -/
  distinct : (definitions.map (·.name)).Nodup
  /-- the name of a type is none of them -/
  ne_typename : ∀ definition ∈ definitions, definition.name ≠ "__typename"

instance (definitions : List InputDef) : Decidable (DeclaredOnce definitions) :=
  decidable_of_iff ((definitions.map (·.name)).Nodup ∧
      ∀ definition ∈ definitions, definition.name ≠ "__typename")
    ⟨fun ⟨hdistinct, hne⟩ => ⟨hdistinct, hne⟩, fun ⟨hdistinct, hne⟩ => ⟨hdistinct, hne⟩⟩

/-- The fields of an input object. -/
def TypeKind.inputs : TypeKind → List InputDef
  | .input fields => fields
  | _ => []

/-- The fields of each input object are declared once. -/
def Schema.InputsDeclaredOnce (schema : Schema) : Prop :=
  ∀ definition ∈ schema.types, DeclaredOnce definition.kind.inputs

instance (schema : Schema) : Decidable schema.InputsDeclaredOnce :=
  inferInstanceAs (Decidable (∀ definition ∈ schema.types, DeclaredOnce definition.kind.inputs))

theorem Schema.InputsDeclaredOnce.fields {schema : Schema} (h : schema.InputsDeclaredOnce)
    {name : String} {definition : TypeDef} {fields : List InputDef}
    (ht : schema.type? name = some definition) (hk : definition.kind = .input fields) :
    DeclaredOnce fields := by
  have hinputs := h definition (List.mem_of_find?_eq_some ht)
  rwa [hk] at hinputs

/-- The input fields that have a default. What the defaults of other declarations come to does not
matter for literals (`CoercesWith.imp`). -/
def Schema.defaulted (schema : Schema) : List InputDef :=
  schema.types.flatMap fun definition => definition.kind.inputs.filter (·.default?.isSome)

theorem Schema.mem_defaulted {schema : Schema} {name : String} {definition : TypeDef}
    {fields : List InputDef} (ht : schema.type? name = some definition)
    (hk : definition.kind = .input fields) {field : InputDef} (hmem : field ∈ fields)
    (hsome : field.default?.isSome = true) : field ∈ schema.defaulted := by
  refine List.mem_flatMap_of_mem (List.mem_of_find?_eq_some ht) ?_
  rw [hk]
  exact List.mem_filter.mpr ⟨hmem, hsome⟩

/-! ## Filling in -/

/-- What is supplied under a name; where a name is repeated, the last counts. -/
def supplied? (members : List (String × Literal)) (name : String) : Option Literal :=
  (members.filter (·.1 = name)).getLast?.map (·.2)

/-- The values of what is declared and supplied, or has a default, in the order of the declarations.
It is a function of the results and of which names are supplied, so that two coercions with the same
results have the same values. -/
def filled (definitions : List InputDef) (members : List (String × Literal))
    (result : InputDef → Value) : Members Value :=
  (definitions.filter fun definition =>
      (supplied? members definition.name).isSome || definition.default?.isSome).map
    fun definition => (definition.name, result definition)

/-- Results are those of what is supplied for declarations. Both what a literal comes to for a
declaration and what a default comes to are parameters, as `Fills` serves for the arguments of
fields and for the members of input objects. -/
structure Fills (coerces : InputDef → Literal → Value → Prop) (default : InputDef → Value → Prop)
    (definitions : List InputDef) (members : List (String × Literal)) (result : InputDef → Value) :
    Prop where
  /-- what is supplied is declared, or the name of a type -/
  declared : ∀ member ∈ members, member.1 ≠ "__typename" →
    ∃ definition ∈ definitions, definition.name = member.1
  /-- what is supplied counts -/
  supplied : ∀ definition ∈ definitions, ∀ literal,
    supplied? members definition.name = some literal → coerces definition literal (result definition)
  /-- else the default, if there is one -/
  default : ∀ definition ∈ definitions, supplied? members definition.name = none →
    definition.default?.isSome = true → default definition (result definition)
  /-- and only what may be null can be left out without -/
  nullable : ∀ definition ∈ definitions, supplied? members definition.name = none →
    definition.default? = none → definition.type.nullable = true

/-- `Fills` is monotone in both parameters, for the declarations and the literals that there are. -/
theorem Fills.imp {coerces coerces' : InputDef → Literal → Value → Prop}
    {default default' : InputDef → Value → Prop} {definitions : List InputDef}
    {members : List (String × Literal)} {result : InputDef → Value}
    (h : Fills coerces default definitions members result)
    (hcoerces : ∀ definition ∈ definitions, ∀ literal value,
      supplied? members definition.name = some literal →
        coerces definition literal value → coerces' definition literal value)
    (hdefault : ∀ definition ∈ definitions, definition.default?.isSome = true → ∀ value,
      default definition value → default' definition value) :
    Fills coerces' default' definitions members result where
  declared := h.declared
  supplied definition hmem literal hsupplied :=
    hcoerces definition hmem literal _ hsupplied (h.supplied definition hmem literal hsupplied)
  default definition hmem hnone hsome :=
    hdefault definition hmem hsome _ (h.default definition hmem hnone hsome)
  nullable := h.nullable

/-! ## The rules -/

/-- Literals for the scalars that every schema has. -/
inductive CoercesBuiltin : String → Literal → Value → Prop where
  /-- integers with sign and 32 bits -/
  | int {i : Int} {h : Json.IntegerRange i} : Literal.Int32Range i →
      CoercesBuiltin "Int" (.number (.integer i h)) (.number (.int64 (Int64.ofInt i)))
  /-- any number -/
  | float {n : Json.Number} : CoercesBuiltin "Float" (.number n) (.number (.ofJson n))
  /-- an integer stands for its digits -/
  | idInteger {i : Int} {h : Json.IntegerRange i} :
      CoercesBuiltin "ID" (.number (.integer i h)) (.string (toString i))
  | id {s : String} : CoercesBuiltin "ID" (.string s) (.string s)
  | string {s : String} : CoercesBuiltin "String" (.string s) (.string s)
  | boolean {b : Bool} : CoercesBuiltin "Boolean" (.boolean b) (.boolean b)

/-- Whether a literal stands for a value of a type, given what the defaults of input fields come to.
The constructors follow the types: null, lists, a single item where a list is expected, and the
kinds of named types. -/
inductive CoercesWith (schema : Schema) (default : InputDef → Value → Prop) :
    TypeRef → Literal → Value → Prop where
  /-- null where the type allows it -/
  | null {type : TypeRef} : type.nullable = true → CoercesWith schema default type .null .null
  /-- a list item by item -/
  | list {item : TypeRef} {nullable : Bool} {literals : List Literal} {values : List Value} :
      literals.length = values.length →
        (∀ pair ∈ literals.zip values, CoercesWith schema default item pair.1 pair.2) →
          CoercesWith schema default (.list item nullable) (.list literals) (.list values)
  /-- anything else as a list of one item -/
  | single {item : TypeRef} {nullable : Bool} {literal : Literal} {value : Value} :
      literal ≠ .null → (∀ literals, literal ≠ .list literals) →
        CoercesWith schema default item literal value →
          CoercesWith schema default (.list item nullable) literal (.list [value])
  /-- a scalar that every schema has -/
  | builtin {name : String} {nullable : Bool} {definition : TypeDef} {literal : Literal}
      {value : Value} :
      schema.type? name = some definition → definition.kind = .scalar →
        Schema.isBuiltin name = true → CoercesBuiltin name literal value →
          CoercesWith schema default (.named name nullable) literal value
  /-- a scalar that the schema defines takes everything but null as it is -/
  | custom {name : String} {nullable : Bool} {definition : TypeDef} {literal : Literal}
      {value : Value} :
      schema.type? name = some definition → definition.kind = .scalar →
        Schema.isBuiltin name = false → literal ≠ .null → literal.toValue = .ok value →
          CoercesWith schema default (.named name nullable) literal value
  /-- one of the names that an enumeration lists -/
  | enumeration {name member : String} {nullable : Bool} {definition : TypeDef}
      {members : List String} :
      schema.type? name = some definition → definition.kind = .enumeration members →
        member ∈ members →
          CoercesWith schema default (.named name nullable) (.enumeration member)
            (.enumeration member)
  /-- an object whose members fill the fields of an input object; the premises are those of
  `Fills` -/
  | input {name : String} {nullable : Bool} {definition : TypeDef} {fields : List InputDef}
      {members : List (String × Literal)} {result : InputDef → Value} :
      schema.type? name = some definition → definition.kind = .input fields →
        (∀ member ∈ members, member.1 ≠ "__typename" → ∃ field ∈ fields, field.name = member.1) →
        (∀ field ∈ fields, ∀ literal, supplied? members field.name = some literal →
          CoercesWith schema default field.type literal (result field)) →
        (∀ field ∈ fields, supplied? members field.name = none →
          field.default?.isSome = true → default field (result field)) →
        (∀ field ∈ fields, supplied? members field.name = none →
          field.default? = none → field.type.nullable = true) →
          CoercesWith schema default (.named name nullable) (.object members)
            (.object (filled fields members result))

/-- What the default of a declaration comes to: the value of its type for which the literal stands
that it is written as. The relation is inductive, so that a default that needs its own value comes
to none. -/
inductive DefaultCoerces (schema : Schema) : InputDef → Value → Prop where
  | of_default {definition : InputDef} {default : Value} {position : Position} {value : Value} :
      definition.default? = some (default, position) →
        CoercesWith schema (DefaultCoerces schema) definition.type default.toLiteral value →
          DefaultCoerces schema definition value

/-- Whether a literal stands for a value of a type. -/
abbrev Coerces (schema : Schema) : TypeRef → Literal → Value → Prop :=
  CoercesWith schema (DefaultCoerces schema)

/-- What arguments come to: the results fill what is declared. -/
abbrev ArgumentsCoerce (schema : Schema) : List InputDef → List (String × Literal) →
    (InputDef → Value) → Prop :=
  Fills (fun definition => Coerces schema definition.type) (DefaultCoerces schema)

/-! ## The rules, read backwards -/

namespace CoercesWith

variable {schema : Schema} {default : InputDef → Value → Prop}

/-- The rule of `CoercesWith` for input objects with its premises put together. -/
theorem of_fills {name : String} {nullable : Bool} {definition : TypeDef} {fields : List InputDef}
    {members : List (String × Literal)} {result : InputDef → Value}
    (ht : schema.type? name = some definition) (hk : definition.kind = .input fields)
    (h : Fills (fun field => CoercesWith schema default field.type) default fields members result) :
    CoercesWith schema default (.named name nullable) (.object members)
      (.object (filled fields members result)) :=
  .input ht hk h.declared h.supplied h.default h.nullable

theorem null_iff {type : TypeRef} {value : Value} :
    CoercesWith schema default type .null value ↔ type.nullable = true ∧ value = .null := by
  constructor
  · intro h
    cases h with
    | null hn => exact ⟨hn, rfl⟩
    | single hl _ _ => exact absurd rfl hl
    | builtin _ _ _ hb => cases hb
    | custom _ _ _ hl _ => exact absurd rfl hl
  · rintro ⟨hn, rfl⟩
    exact .null hn

theorem list_iff {item : TypeRef} {nullable : Bool} {literals : List Literal} {value : Value} :
    CoercesWith schema default (.list item nullable) (.list literals) value ↔
      ∃ values, List.Forall₂ (CoercesWith schema default item) literals values ∧
        value = .list values := by
  constructor
  · intro h
    cases h with
    | list hlength hitems =>
      exact ⟨_, List.forall₂_iff_zip.mpr ⟨hlength, fun hmem => hitems _ hmem⟩, rfl⟩
    | single _ hl _ => exact absurd rfl (hl literals)
  · rintro ⟨values, hitems, rfl⟩
    obtain ⟨hlength, hzip⟩ := List.forall₂_iff_zip.mp hitems
    exact .list hlength fun pair hmem => hzip hmem

theorem single_iff {item : TypeRef} {nullable : Bool} {literal : Literal} {value : Value}
    (hnull : literal ≠ .null) (hlist : ∀ literals, literal ≠ .list literals) :
    CoercesWith schema default (.list item nullable) literal value ↔
      ∃ inner, CoercesWith schema default item literal inner ∧ value = .list [inner] := by
  constructor
  · intro h
    cases h with
    | null _ => exact absurd rfl hnull
    | list _ _ => exact absurd rfl (hlist _)
    | single _ _ h => exact ⟨_, h, rfl⟩
  · rintro ⟨inner, h, rfl⟩
    exact .single hnull hlist h

/-- `CoercesWith` is monotone in what defaults come to. Only the defaults of the schema's own input
fields count. -/
theorem imp {default' : InputDef → Value → Prop}
    (hdefault : ∀ field ∈ schema.defaulted, ∀ value, default field value → default' field value)
    {type : TypeRef} {literal : Literal} {value : Value}
    (h : CoercesWith schema default type literal value) :
    CoercesWith schema default' type literal value := by
  induction h with
  | null hn => exact .null hn
  | list hlength _ ih => exact .list hlength ih
  | single hnull hlist _ ih => exact .single hnull hlist ih
  | builtin ht hk hb h => exact .builtin ht hk hb h
  | custom ht hk hb hnull h => exact .custom ht hk hb hnull h
  | enumeration ht hk hmem => exact .enumeration ht hk hmem
  | input ht hk hdeclared _ hdef hnullable ih =>
    refine .input ht hk hdeclared ih (fun field hmem hnone hsome => ?_) hnullable
    exact hdefault field (Schema.mem_defaulted ht hk hmem hsome) _ (hdef field hmem hnone hsome)

end CoercesWith

/-! ## Defaults -/

/-- No relation that fits the rules has less in it: every value that a default comes to is forced.
To show that something holds of all of them, it is enough to show that it fits the rules; so it is
done with reading in a limited number of steps. -/
theorem DefaultCoerces.least {schema : Schema} {known : InputDef → Value → Prop}
    (hclosed : ∀ definition default position value, definition.default? = some (default, position) →
      CoercesWith schema known definition.type default.toLiteral value → known definition value)
    {definition : InputDef} {value : Value} (h : DefaultCoerces schema definition value) :
    known definition value := by
  -- by induction on how the default comes to the value, literals and defaults at a time
  refine @DefaultCoerces.rec schema (fun definition value _ => known definition value)
    (fun type literal value _ => CoercesWith schema known type literal value)
    (fun hd _ ih => hclosed _ _ _ _ hd ih) (fun hn => .null hn)
    (fun hlength _ ih => .list hlength ih) (fun hnull hlist _ ih => .single hnull hlist ih)
    (fun ht hk hb h => .builtin ht hk hb h)
    (fun ht hk hb hnull h => .custom ht hk hb hnull h)
    (fun ht hk hmem => .enumeration ht hk hmem)
    (fun ht hk hdeclared _ _ hnullable ih ihdefault =>
      .input ht hk hdeclared ih ihdefault hnullable) definition value h

end FeedGraph
