import Mathlib.Tactic.Choose
import FeedGraph.Proofs.Plan.Readings

/-!
# Conformance: what coerced values look like

`Conforms` says when a value belongs to a declared type, rule by rule and without a look at how
literals are read. The main statement is `Coercion.argumentsTyped_coerceAll`: whatever the literals
are, the arguments that come out of coercion stand in the order of their declarations, none that is
required is missing, and each value conforms to a declaration of its name.

Nothing keeps a field from declaring one argument twice. The values that are filled in for the later
declaration then take the place of those given for the first, and so a name may have a value that
conforms to one of its declarations and not to the other.
-/

namespace FeedGraph

/-! ## The rules -/

/-- Values of the scalars that every schema has. Integers are checked for the range of 32 bits,
although they are kept in 64. -/
inductive BuiltinValue : String → Value → Prop where
  | int (n : Int64) : Literal.Int32Range n.toInt → BuiltinValue "Int" (.number (.int64 n))
  | float (n : Value.Number) : BuiltinValue "Float" (.number n)
  | id (s : String) : BuiltinValue "ID" (.string s)
  | string (s : String) : BuiltinValue "String" (.string s)
  | boolean (b : Bool) : BuiltinValue "Boolean" (.boolean b)

/-- The names of values are declared, come in the order of the declarations and once each, and none
is missing that null cannot stand for. It says nothing about the values, so that it serves for
arguments and for the fields of input objects. -/
structure Provides (definitions : List InputDef) (values : Members Value) : Prop where
  /-- the order is that of the declarations -/
  ordered : (Members.names values).Sublist (definitions.map (·.name))
  /-- no name comes twice -/
  distinct : (Members.names values).Nodup
  /-- what cannot be null is there -/
  required : ∀ definition ∈ definitions, definition.type.nullable = false →
    definition.name ∈ Members.names values

/-- Whether a value belongs to a type. The constructors follow `TypeRef` and the kinds of named
types; literals, variables and defaults do not come into it. A scalar that is declared in the schema
takes any value that is not null. -/
inductive Conforms (schema : Schema) : TypeRef → Value → Prop where
  /-- null belongs to the types that allow it -/
  | null {type : TypeRef} : type.nullable = true → Conforms schema type .null
  /-- a list whose items belong to the type of items -/
  | list {item : TypeRef} {nullable : Bool} {values : List Value} :
      (∀ value ∈ values, Conforms schema item value) →
        Conforms schema (.list item nullable) (.list values)
  /-- a value of a scalar that every schema has -/
  | builtin {name : String} {nullable : Bool} {definition : TypeDef} {value : Value} :
      schema.type? name = some definition → definition.kind = .scalar →
        Schema.isBuiltin name = true → BuiltinValue name value →
          Conforms schema (.named name nullable) value
  /-- anything but null belongs to a scalar that the schema defines -/
  | custom {name : String} {nullable : Bool} {definition : TypeDef} {value : Value} :
      schema.type? name = some definition → definition.kind = .scalar →
        Schema.isBuiltin name = false → value ≠ .null →
          Conforms schema (.named name nullable) value
  /-- one of the names that an enumeration lists -/
  | enumeration {name member : String} {nullable : Bool} {definition : TypeDef}
      {members : List String} :
      schema.type? name = some definition → definition.kind = .enumeration members →
        member ∈ members → Conforms schema (.named name nullable) (.enumeration member)
  /-- an object that provides what an input object declares; each member belongs to the type of a
  declaration of its name -/
  | input {name : String} {nullable : Bool} {definition : TypeDef} {fields : List InputDef}
      {members : Members Value} (declaration : String × Value → InputDef) :
      schema.type? name = some definition → definition.kind = .input fields →
        Provides fields members →
        (∀ member ∈ members, declaration member ∈ fields ∧
          (declaration member).name = member.1) →
        (∀ member ∈ members, Conforms schema (declaration member).type member.2) →
          Conforms schema (.named name nullable) (.object members)

theorem Conforms.ne_null {schema : Schema} {type : TypeRef} {value : Value}
    (h : Conforms schema type value) (hn : type.nullable = false) : value ≠ .null := by
  rintro rfl
  cases h with
  | null h =>
    rw [hn] at h
    cases h
  | builtin _ _ _ h => cases h
  | custom _ _ _ h => exact h rfl

/-- The rule for input objects, which asks for one function that gives each member a declaration; it
is chosen here from the existence for each of them. -/
theorem Conforms.input_of_exists {schema : Schema} {name : String} {nullable : Bool}
    {definition : TypeDef} {fields : List InputDef} {members : Members Value}
    (ht : schema.type? name = some definition) (hk : definition.kind = .input fields)
    (hp : Provides fields members)
    (hm : ∀ member ∈ members, ∃ field ∈ fields,
      field.name = member.1 ∧ Conforms schema field.type member.2) :
    Conforms schema (.named name nullable) (.object members) := by
  have : Nonempty InputDef := ⟨⟨name, .named name nullable, none⟩⟩
  choose! declaration hmem hname hconforms using hm
  exact .input declaration ht hk hp (fun member h => ⟨hmem member h, hname member h⟩) hconforms

/-- All declarations of a name agree on its type; so it is with a name that is declared once. A
value is only known to conform to *some* declaration of its name, which is the same as every one if
the name is `Unambiguous`. -/
def InputDef.Unambiguous (definition : InputDef) (definitions : List InputDef) : Prop :=
  ∀ other ∈ definitions, other.name = definition.name → other.type = definition.type

/-- The values of arguments fit their declarations. -/
structure ArgumentsTyped (schema : Schema) (definitions : List InputDef) (values : Members Value) :
    Prop where
  /-- they are declared, in order, and complete -/
  provides : Provides definitions values
  /-- each conforms to a declaration of its name -/
  conforms : ∀ argument ∈ values, ∃ definition ∈ definitions,
    definition.name = argument.1 ∧ Conforms schema definition.type argument.2
  /-- and so to the declaration, unless there are others that differ; where null is not allowed, it
  is then not null -/
  declared : ∀ definition ∈ definitions, definition.Unambiguous definitions →
    ∀ value, (definition.name, value) ∈ values →
      Conforms schema definition.type value ∧ (definition.type.nullable = false → value ≠ .null)

/-- For an unambiguous declaration, the one that a value conforms to has the same type. -/
theorem ArgumentsTyped.of_conforms {schema : Schema} {definitions : List InputDef}
    {values : Members Value} (hp : Provides definitions values)
    (hc : ∀ argument ∈ values, ∃ definition ∈ definitions,
      definition.name = argument.1 ∧ Conforms schema definition.type argument.2) :
    ArgumentsTyped schema definitions values := by
  refine ⟨hp, hc, fun definition _ hu value hv => ?_⟩
  obtain ⟨other, hother, hname, hconforms⟩ := hc _ hv
  rw [hu other hother hname] at hconforms
  exact ⟨hconforms, hconforms.ne_null⟩

/-! ## One argument after the other -/

namespace Provides

theorem snoc_none {definitions : List InputDef} {values : Members Value} {definition : InputDef}
    (h : Provides definitions values) (hn : definition.type.nullable = true) :
    Provides (definitions ++ [definition]) values := by
  refine ⟨?_, h.distinct, ?_⟩
  · rw [List.map_append]
    exact h.ordered.trans (List.sublist_append_left _ _)
  · intro other hother hother'
    rcases List.mem_append.mp hother with hmem | hmem
    · exact h.required other hmem hother'
    · rw [List.mem_singleton.mp hmem, hn] at hother'
      cases hother'

/-- The name of the added value may be there already, if it is declared twice; `Members.set` then
replaces the value and keeps the order. -/
theorem snoc_some {definitions : List InputDef} {values : Members Value} {definition : InputDef}
    (h : Provides definitions values) (value : Value) :
    Provides (definitions ++ [definition]) (Members.set values definition.name value) := by
  have hmem : ∀ name, name ∈ Members.names values ∨ name = definition.name →
      name ∈ Members.names (Members.set values definition.name value) := by
    intro name hname
    by_cases hd : definition.name ∈ Members.names values
    · rw [Members.names_set_of_mem values value hd]
      rcases hname with hname | rfl
      · exact hname
      · exact hd
    · rw [Members.set_of_not_mem values value hd]
      simpa [Members.names] using hname
  refine ⟨?_, Members.nodup_names_set _ _ h.distinct, ?_⟩
  · rw [List.map_append]
    by_cases hd : definition.name ∈ Members.names values
    · rw [Members.names_set_of_mem values value hd]
      exact h.ordered.trans (List.sublist_append_left _ _)
    · rw [Members.set_of_not_mem values value hd, Members.names, List.map_append]
      exact List.Sublist.append h.ordered (List.Sublist.refl _)
  · intro other hother hn
    rcases List.mem_append.mp hother with hother | hother
    · exact hmem _ (Or.inl (h.required other hother hn))
    · exact hmem _ (Or.inr (congrArg InputDef.name (List.mem_singleton.mp hother)))

end Provides

namespace Coercion

/-- Whatever a reading makes of a literal conforms to the type it is read at. -/
def Faithful (schema : Schema) (reading : Reading) : Prop :=
  ∀ type argument position value, reading type argument position = .ok value →
    Conforms schema type value

/-- Whatever defaults are read as conforms to their types. As the fields of an object that is a
default may have defaults again, it is shown for readers that follow any number of them
(`faithfulReader_readDefault`). -/
def FaithfulReader (schema : Schema) (reader : DefaultReader) : Prop :=
  ∀ definition value position result, reader definition value position = .ok result →
    Conforms schema definition.type result

variable {schema : Schema} {reader : DefaultReader} {place : Position}

/-- What one argument comes to: a value that conforms, or nothing where that is allowed. -/
theorem coerceArgument_ok
    (hreader : FaithfulReader schema reader)
    {definition : InputDef} {supplied? : Option Supplied} {value? : Option Value}
    (hs : ∀ supplied, supplied? = some supplied → Faithful schema supplied.reading)
    (h : coerceArgument reader place definition supplied? = .ok value?) :
    (∃ value, value? = some value ∧ Conforms schema definition.type value) ∨
      (value? = none ∧ definition.type.nullable = true) := by
  rcases coerceArgument_cases h with ⟨supplied, value, hsome, rfl, hr⟩ | ⟨value, rfl, _, _, -, hr⟩ |
    ⟨rfl, -, hn⟩
  · exact Or.inl ⟨value, rfl, hs supplied hsome _ _ _ _ hr⟩
  · exact Or.inl ⟨value, rfl, hreader _ _ _ _ hr⟩
  · exact Or.inr ⟨rfl, hn⟩

/-- The declarations are gone through one after the other; `done` are those behind us, and what is
known of the values so far is known of these. The induction is on the others. -/
theorem coerceDeclared_ok
    (hreader : FaithfulReader schema reader)
    {definitions done : List InputDef} {supplied stray : Members Supplied}
    {values result : Members Value}
    (hs : ∀ pair ∈ supplied, Faithful schema pair.2.reading) (hp : Provides done values)
    (hc : ∀ argument ∈ values, ∃ definition ∈ done,
      definition.name = argument.1 ∧ Conforms schema definition.type argument.2)
    (h : coerceDeclared reader place definitions supplied values = .ok (result, stray)) :
    Provides (done ++ definitions) result ∧ ∀ argument ∈ result, ∃ definition ∈ done ++ definitions,
      definition.name = argument.1 ∧ Conforms schema definition.type argument.2 := by
  induction definitions generalizing done supplied values with
  | nil =>
    simp only [coerceDeclared, Except.ok.injEq, Prod.mk.injEq] at h
    rw [List.append_nil, ← h.1]
    exact ⟨hp, hc⟩
  | cons definition rest ih =>
    rw [coerceDeclared] at h
    obtain ⟨value?, ha, h⟩ := ok_of_bind h
    have hs' : ∀ pair ∈ Members.erase supplied definition.name,
        Faithful schema pair.2.reading :=
      fun pair hmem => hs pair (Members.mem_of_mem_erase hmem)
    have hfound : ∀ given, Members.get? supplied definition.name = some given →
        Faithful schema given.reading :=
      fun given hg => hs _ (Members.mem_of_get? hg)
    have hkeep : ∀ argument ∈ values, ∃ d ∈ done ++ [definition],
        d.name = argument.1 ∧ Conforms schema d.type argument.2 := by
      intro argument hmem
      obtain ⟨d, hd, hrest⟩ := hc argument hmem
      exact ⟨d, List.mem_append_left _ hd, hrest⟩
    rw [List.append_cons]
    rcases coerceArgument_ok hreader hfound ha with ⟨value, rfl, hvalue⟩ | ⟨rfl, hn⟩
    · refine ih hs' (hp.snoc_some value) ?_ h
      intro argument hmem
      rcases Members.mem_set hmem with rfl | hmem
      · exact ⟨definition, List.mem_append_right _ List.mem_cons_self, rfl, hvalue⟩
      · exact hkeep argument hmem
    · exact ih hs' (hp.snoc_none hn) hkeep h

theorem coerceArguments_ok
    (hreader : FaithfulReader schema reader)
    {definitions : List InputDef} {pairs : List (String × Supplied)} {owner : String}
    {values : Members Value} (hs : ∀ pair ∈ pairs, Faithful schema pair.2.reading)
    (h : coerceArguments reader place definitions pairs owner = .ok values) :
    ArgumentsTyped schema definitions values := by
  rw [coerceArguments] at h
  obtain ⟨⟨result, stray⟩, hd, h⟩ := ok_of_bind h
  have hs' : ∀ pair ∈ Members.ofPairs (pairs.filter (·.1 ≠ "__typename")),
      Faithful schema pair.2.reading :=
    fun pair hmem => hs pair (List.mem_of_mem_filter (Members.mem_of_mem_ofPairs hmem))
  have hempty : Provides [] ([] : Members Value) :=
    ⟨List.Sublist.refl _, List.nodup_nil, fun _ hmem => absurd hmem List.not_mem_nil⟩
  obtain ⟨hp, hc⟩ := coerceDeclared_ok hreader hs' hempty
    (fun _ hmem => absurd hmem List.not_mem_nil) hd
  by_cases hstray : stray.isEmpty = true
  · simp only [hstray, if_true] at h
    obtain rfl := Except.ok.inj h
    exact .of_conforms hp hc
  · simp only [hstray] at h
    cases h

/-! ## Literals -/

theorem builtinValue_of_coerces {name : String} {literal : Literal} {value : Value}
    (h : CoercesBuiltin name literal value) : BuiltinValue name value := by
  cases h with
  | @int i _ hrange =>
    have hi : (Int64.ofInt i).toInt = i := by
      apply Int64.toInt_ofInt_of_le
      · have := hrange.1
        omega
      · have := hrange.2
        omega
    exact .int _ (by rw [hi]; exact hrange)
  | float => exact .float _
  | idInteger => exact .id _
  | id => exact .id _
  | string => exact .string _
  | boolean => exact .boolean _

theorem toValue_ne_null {literal : Literal} (hl : literal ≠ .null) :
    literal.toValue ≠ .ok .null := by
  intro h
  cases literal with
  | null => exact hl rfl
  | list items =>
    rw [Literal.toValue] at h
    cases hv : Literal.toValues items <;> simp [hv, Except.map] at h
  | object members =>
    rw [Literal.toValue] at h
    cases hv : Literal.toValueMembers members <;> simp [hv, Except.map] at h
  | _ => simp [Literal.toValue] at h

/-- The cases are the kinds of the named type; for an input object, the members are read by
`coerceArguments` with readings of which the hypothesis `hm` speaks. -/
theorem coerceNamed_ok (hreader : FaithfulReader schema reader) {literal : Literal}
    {members : List (String × (Literal × Reading))} {name argument : String}
    {position : Position} {value : Value} {nullable : Bool}
    (hl : literal ≠ .null) (hm : ∀ member ∈ members, Faithful schema member.2.2)
    (h : coerceNamed schema reader place literal members name argument position = .ok value) :
    Conforms schema (.named name nullable) value := by
  obtain ⟨definition, ht, ⟨hkind, hb, hv⟩ | ⟨hkind, hb, hv⟩ | ⟨names, member, hkind, hmem, rfl, rfl⟩ |
    ⟨fields, _, values, hkind, rfl, hvalues, rfl⟩⟩ := coerceNamed_cases h
  · exact .builtin ht hkind hb (builtinValue_of_coerces hv)
  · refine .custom ht hkind hb ?_
    rintro rfl
    exact toValue_ne_null hl hv
  · exact .enumeration ht hkind hmem
  · have typed := coerceArguments_ok hreader (fun pair hpair => by
      obtain ⟨member, hmember, rfl⟩ := List.mem_map.mp hpair
      exact hm member hmember) hvalues
    exact .input_of_exists ht hkind typed.provides typed.conforms

/-- The induction is on the literal. Lists and objects read what is in them with the same function,
and all else is `coerceNamed_ok` or null. -/
theorem faithful_coerce (hreader : FaithfulReader schema reader) (literal : Literal) :
    Faithful schema (coerce schema reader place literal) := by
  intro type argument position value h
  refine coerce_induction (P := fun _ type value => Conforms schema type value)
    ?unbound ?null ?list ?single ?named literal type argument position value h
  case unbound => exact fun _ _ hn => .null hn
  case null => exact fun _ hn => .null hn
  case list =>
    intro item nullable literals values hitems
    refine .list fun value hmem => ?_
    obtain ⟨literal, -, hvalue⟩ := exists_of_forall₂ hitems hmem
    exact hvalue
  case single =>
    intro item nullable literal value _ hvalue
    refine .list fun single hmem => ?_
    rw [List.mem_singleton.mp hmem]
    exact hvalue
  case named =>
    intro literal name nullable argument position value hnull _ ih h
    refine coerceNamed_ok hreader hnull (fun member hmember => ?_) h
    cases literal with
    | object members =>
      rw [memberReadings, coerceMembers_eq_map] at hmember
      obtain ⟨pair, hpair, rfl⟩ := List.mem_map.mp hmember
      exact ih members rfl pair hpair
    | _ => cases hmember

/-- The induction is on the number of defaults that may be followed: a default is read by `coerce`
with a reader that has one less. -/
theorem faithfulReader_readDefault (steps : Nat) :
    FaithfulReader schema (readDefault schema place steps) := by
  induction steps with
  | zero =>
    intro definition value position result h
    cases h
  | succ steps ih =>
    intro definition value position result h
    rw [readDefault] at h
    exact faithful_coerce ih value.toLiteral _ _ _ _ h

/-- The arguments of a field fit their declarations, whatever literals are given for them: they are
in the order of the declarations, none that is required is missing, and their values conform. -/
theorem argumentsTyped_coerceAll {bindings values : Members Value} {field : String}
    {definitions : List InputDef} {arguments : List Argument}
    (h : coerceAll schema bindings field place definitions arguments = .ok values) :
    ArgumentsTyped schema definitions values := by
  rw [coerceAll, argumentsWithin] at h
  have hreader : FaithfulReader schema (readDefault schema place (defaultCount schema + 1)) :=
    faithfulReader_readDefault _
  refine coerceArguments_ok hreader ?_ h
  intro pair hmem
  obtain ⟨argument, -, rfl⟩ := List.mem_map.mp hmem
  exact faithful_coerce hreader _

end Coercion

end FeedGraph
