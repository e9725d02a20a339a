import Mathlib.Data.List.Pairwise
import FeedGraph.Schema.Reader

/-!
# Redefinitions: names that are defined more than once

A schema document defines types one after the other. A type with a name that another one has already
is refused, with an exemption for the scalars that every schema has: a document may define these
too. The exemption does not ask whether the document has done so before, and then the last
definition takes the place of the others.

The main statement is `Schema.ofDefinitions_repeated`. Two definitions of any other name are always
found, wherever they stand, and no definition of another name is ever replaced; of the definitions
of a scalar that every schema has, the last one stands.

`Schema.Assembled` is what holds of the schema while definitions are added: under every name it has
the last type that has been defined, else the scalar of that name.
-/

namespace FeedGraph

open List (Sublist)

/-- The type that a definition defines. -/
def SchemaDefinition.typeDef? : SchemaDefinition → Option TypeDef
  | .type definition => some definition
  | _ => none

namespace Schema

def declared (definitions : List SchemaDefinition) : List TypeDef :=
  definitions.filterMap (·.typeDef?)

/-- The last type with a name. -/
def last? (types : List TypeDef) (name : String) : Option TypeDef :=
  types.reverse.find? (·.name = name)

/-- Only names of scalars that every schema has come more than once. -/
def Distinct (types : List TypeDef) : Prop :=
  types.Pairwise fun first later => later.name = first.name → isBuiltin first.name = true

/-- A schema under construction: under every name there is the last type that has been defined, else
the scalar of this name that every schema has. This is the invariant of adding definitions, and not
that the types are the defined ones: a scalar that is defined stands in the place of the one that
was there. -/
def Assembled (types : List TypeDef) (schema : Schema) : Prop :=
  ∀ name, schema.type? name = (last? types name).or (initial.type? name)

variable {types : List TypeDef} {schema : Schema} {definition : TypeDef} {name : String}

/-! ## The last of several types -/

theorem last?_concat : last? (types ++ [definition]) name =
    if definition.name = name then some definition else last? types name := by
  rw [last?, List.reverse_concat, List.find?_cons]
  by_cases h : definition.name = name <;> simp [h, last?]

theorem last?_isSome : (last? types name).isSome = true ↔ ∃ t ∈ types, t.name = name := by
  simp [last?]

theorem distinct_concat : Distinct (types ++ [definition]) ↔ Distinct types ∧
    ∀ first ∈ types, definition.name = first.name → isBuiltin first.name = true := by
  simp [Distinct, List.pairwise_append]

theorem Distinct.last? (h : Distinct types) (hmem : definition ∈ types)
    (hbuiltin : isBuiltin definition.name = false) :
    Schema.last? types definition.name = some definition := by
  obtain ⟨before, after, rfl⟩ := List.append_of_mem hmem
  have hafter : ∀ later ∈ after, ¬ later.name = definition.name := by
    intro later hlater hname
    have hsame := (List.pairwise_cons.mp (List.pairwise_append.mp h).2.1).1 later hlater hname
    rw [hbuiltin] at hsame
    cases hsame
  rw [Schema.last?, List.reverse_append, List.find?_append, List.reverse_cons, List.find?_append,
    List.find?_eq_none.mpr fun later hlater => by simpa using hafter later (List.mem_reverse.mp hlater)]
  simp

/-! ## Adding a type -/

theorem defines_initial : initial.defines name = isBuiltin name := by
  rw [defines, type?, initial, List.find?_map, Option.isSome_map, isBuiltin, Bool.eq_iff_iff,
    List.find?_isSome, List.contains_iff_mem]
  simp

theorem type?_replaceType : (schema.replaceType definition).type? name =
    if definition.name = name then (schema.type? name).map fun _ => definition
    else schema.type? name := by
  -- a type is replaced by one with its own name, so that looking up finds the same place
  have hname : ∀ t : TypeDef,
      (if t.name = definition.name then definition else t).name = t.name := by
    intro t
    split
    · next heq => exact heq.symm
    · rfl
  rw [type?, replaceType, List.find?_map, type?]
  simp only [Function.comp_def, hname]
  cases hfind : schema.types.find? (·.name = name) with
  | none => simp
  | some found =>
    obtain rfl : found.name = name := by simpa using List.find?_some hfind
    rw [Option.map_some, Option.map_some, apply_ite some]
    simp only [eq_comm]

theorem Assembled.defines_iff (h : Assembled types schema) :
    schema.defines name = true ↔ (∃ t ∈ types, t.name = name) ∨ isBuiltin name = true := by
  rw [defines, h, Option.isSome_or, Bool.or_eq_true, last?_isSome, ← defines_initial, defines]

/-- A name that a type has already is refused. -/
theorem Assembled.addType_error (h : Assembled types schema)
    (hbuiltin : isBuiltin definition.name = false) {first : TypeDef} (hmem : first ∈ types)
    (hname : definition.name = first.name) :
    schema.addType definition = .error (.duplicateType first.name) := by
  have hdefined : schema.defines definition.name = true :=
    h.defines_iff.mpr (.inl ⟨first, hmem, hname.symm⟩)
  rw [addType, if_pos hdefined, hbuiltin, hname]
  rfl

/-- A new name, and that of a scalar that every schema has, is added, and the type is the last one
with it. The second case is the exemption: it does not matter whether the name has been defined
before. -/
theorem Assembled.addType_ok (h : Assembled types schema)
    (hnew : ∀ first ∈ types, definition.name = first.name → isBuiltin first.name = true) :
    ∃ next, schema.addType definition = .ok next ∧ Assembled (types ++ [definition]) next := by
  rw [addType]
  split
  · next hdefined =>
    have hbuiltin : isBuiltin definition.name = true := by
      rcases h.defines_iff.mp hdefined with ⟨first, hmem, hname⟩ | hbuiltin
      · exact hname ▸ hnew first hmem hname.symm
      · exact hbuiltin
    refine ⟨_, if_pos hbuiltin, fun name => ?_⟩
    rw [type?_replaceType, last?_concat]
    by_cases hname : definition.name = name
    · obtain ⟨old, hold⟩ := Option.isSome_iff_exists.mp hdefined
      rw [if_pos hname, if_pos hname, ← hname, hold]
      rfl
    · rw [if_neg hname, if_neg hname, h name]
  · next hdefined =>
    refine ⟨_, rfl, fun name => ?_⟩
    rw [type?, List.find?_append, last?_concat]
    by_cases hname : definition.name = name
    · have hnone : schema.type? name = none := by
        rw [← hname]
        simpa [defines] using hdefined
      rw [type?] at hnone
      rw [hnone, if_pos hname]
      simp [hname]
    · have hother := h name
      rw [type?] at hother
      rw [if_neg hname, hother]
      simp [hname]

/-! ## Adding definitions -/

/-- Two types stand one behind the other, have one name, and it is not that of a scalar that every
schema has. -/
structure Repeated (types : List TypeDef) (first later : TypeDef) : Prop where
  /-- one stands behind the other -/
  sublist : Sublist [first, later] types
  /-- they have one name -/
  name_eq : later.name = first.name
  /-- which is not one that is exempted -/
  not_builtin : isBuiltin first.name = false

theorem distinct_iff : Distinct types ↔ ¬ ∃ first later, Repeated types first later := by
  rw [Distinct, List.pairwise_iff_forall_sublist]
  constructor
  · rintro h ⟨first, later, hsub, hname, hbuiltin⟩
    rw [h hsub hname] at hbuiltin
    cases hbuiltin
  · intro h first later hsub hname
    by_contra hbuiltin
    exact h ⟨first, later, hsub, hname, by simpa using hbuiltin⟩

/-- Adding definitions, in which nothing is added to types: either no name is repeated, and all
types are added, or two types with one name are found. The induction is on the definitions that are
still to be added, with `Assembled` for those before. -/
theorem Assembled.foldlM_add {definitions : List SchemaDefinition}
    (hnone : ∀ name, .extension name ∉ definitions) (h : Assembled types schema)
    (hdistinct : Distinct types) :
    (Distinct (types ++ declared definitions) ∧
        ∃ next, definitions.foldlM add schema = .ok next ∧
          Assembled (types ++ declared definitions) next) ∨
      ∃ first later, Repeated (types ++ declared definitions) first later ∧
        definitions.foldlM add schema = .error (.duplicateType first.name) := by
  induction definitions generalizing types schema with
  | nil =>
    have hall : types ++ declared [] = types := List.append_nil types
    exact .inl ⟨hall.symm ▸ hdistinct, schema, rfl, hall.symm ▸ h⟩
  | cons first rest ih =>
    have hrest : ∀ name, .extension name ∉ rest := fun name hmem =>
      hnone name (List.mem_cons_of_mem _ hmem)
    rw [List.foldlM_cons]
    cases first with
    | type definition =>
      have hall : types ++ declared (.type definition :: rest) =
          types ++ [definition] ++ declared rest := List.append_cons ..
      rw [hall]
      by_cases hold : ∃ first ∈ types, definition.name = first.name ∧ isBuiltin first.name = false
      · obtain ⟨first, hmem, hname, hbuiltin⟩ := hold
        have hpair : Sublist [first, definition] (types ++ [definition] ++ declared rest) :=
          ((List.singleton_sublist.mpr hmem).append (.refl [definition])).trans
            (List.sublist_append_left ..)
        refine .inr ⟨first, definition, ⟨hpair, hname, hbuiltin⟩, ?_⟩
        rw [add, h.addType_error (hname ▸ hbuiltin) hmem hname]
        rfl
      · have hnew : ∀ first ∈ types, definition.name = first.name → isBuiltin first.name = true := by
          intro first hmem hname
          by_contra hbuiltin
          exact hold ⟨first, hmem, hname, by simpa using hbuiltin⟩
        obtain ⟨next, hadd, hnext⟩ := h.addType_ok hnew
        rw [add, hadd]
        exact ih hrest hnext (distinct_concat.mpr ⟨hdistinct, hnew⟩)
    | extension name => exact absurd List.mem_cons_self (hnone name)
    | roots query? mutation? =>
      have hroots : Assembled types { schema with
          queryRoot := query?.getD schema.queryRoot
          mutationRoot := mutation?.getD schema.mutationRoot } := h
      exact ih hrest hroots hdistinct
    | directive => exact ih hrest h hdistinct

theorem ofDefinitions_of_added {definitions : List SchemaDefinition}
    (h : definitions.foldlM add initial = .ok schema) :
    ofDefinitions definitions = match schema.danglingReference? with
      | some reference => .error (.unknownType reference.type reference.source)
      | none => .ok schema := by
  rw [ofDefinitions, h]
  rfl

/-- What becomes of names that definitions repeat. -/
structure RepeatsFound (definitions : List SchemaDefinition) : Prop where
  /-- definitions are refused for two of one name exactly if there are two of a name that is not that
  of a scalar that every schema has -/
  refused_iff : (∃ name, ofDefinitions definitions = .error (.duplicateType name)) ↔
    ∃ first later, Repeated (declared definitions) first later
  /-- they are refused for such a name -/
  reported : ∀ name, ofDefinitions definitions = .error (.duplicateType name) →
    ∃ first later, Repeated (declared definitions) first later ∧ first.name = name
  /-- if they are accepted, the last type with a name is the one that the schema has -/
  last : ∀ schema, ofDefinitions definitions = .ok schema → ∀ definition ∈ declared definitions,
    schema.type? definition.name = last? (declared definitions) definition.name
  /-- and a type is replaced by another one only if it is a scalar that every schema has -/
  kept : ∀ schema, ofDefinitions definitions = .ok schema → ∀ definition ∈ declared definitions,
    isBuiltin definition.name = false → schema.type? definition.name = some definition

theorem RepeatsFound.of_distinct {definitions : List SchemaDefinition} {built : Schema}
    (hdistinct : Distinct (declared definitions))
    (hbuilt : definitions.foldlM add initial = .ok built)
    (hall : Assembled (declared definitions) built) : RepeatsFound definitions := by
  have hadded := ofDefinitions_of_added hbuilt
  have hnot : ∀ name, ofDefinitions definitions ≠ .error (.duplicateType name) := by
    intro name herror
    rw [hadded] at herror
    split at herror <;> cases herror
  have hlast : ∀ schema, ofDefinitions definitions = .ok schema →
      ∀ definition ∈ declared definitions,
        schema.type? definition.name = last? (declared definitions) definition.name := by
    intro schema hschema definition hmem
    obtain ⟨last, hlast⟩ := Option.isSome_iff_exists.mp
      (last?_isSome.mpr ⟨definition, hmem, rfl⟩)
    rw [hadded] at hschema
    split at hschema
    · cases hschema
    · obtain rfl := Except.ok.inj hschema
      rw [hall, hlast]
      rfl
  constructor
  case refused_iff =>
    exact ⟨fun ⟨name, herror⟩ => absurd herror (hnot name),
      fun hrepeated => absurd hrepeated (distinct_iff.mp hdistinct)⟩
  case reported => exact fun name herror => absurd herror (hnot name)
  case last => exact hlast
  case kept =>
    intro schema hschema definition hmem hbuiltin
    rw [hlast schema hschema definition hmem, hdistinct.last? hmem hbuiltin]

theorem RepeatsFound.of_repeated {definitions : List SchemaDefinition} {first later : TypeDef}
    (hrepeated : Repeated (declared definitions) first later)
    (herror : definitions.foldlM add initial = .error (.duplicateType first.name)) :
    RepeatsFound definitions := by
  have hrefused : ofDefinitions definitions = .error (.duplicateType first.name) := by
    rw [ofDefinitions, herror]
    rfl
  constructor
  case refused_iff =>
    exact ⟨fun _ => ⟨first, later, hrepeated⟩, fun _ => ⟨first.name, hrefused⟩⟩
  case reported =>
    intro name herror
    rw [hrefused] at herror
    cases herror
    exact ⟨first, later, hrepeated, rfl⟩
  case last | kept =>
    intro schema hschema
    rw [hrefused] at hschema
    cases hschema

/-- Whatever a document defines in whatever order, without additions to types: two definitions of
one name are found, unless it is that of a scalar that every schema has; then the last one
stands. -/
theorem ofDefinitions_repeated {definitions : List SchemaDefinition}
    (hnone : ∀ name, .extension name ∉ definitions) : RepeatsFound definitions := by
  have hstart : Assembled [] initial := fun name => rfl
  have hadd := hstart.foldlM_add hnone List.Pairwise.nil
  rw [List.nil_append] at hadd
  rcases hadd with ⟨hdistinct, built, hbuilt, hall⟩ | ⟨first, later, hrepeated, herror⟩
  · exact .of_distinct hdistinct hbuilt hall
  · exact .of_repeated hrepeated herror

end Schema

/-! ## Integers that are defined twice -/

namespace Integers

/-- Integers as a scalar. -/
def scalar : TypeDef := ⟨"Int", none, .scalar⟩

/-- Integers as an enumeration. -/
def choice : TypeDef := ⟨"Int", none, .enumeration ["ONE"]⟩

def root : TypeDef := ⟨"Query", none, .object [⟨"a", .named "Int" true, none, []⟩]⟩

def other : TypeDef := ⟨"Query", none, .object []⟩

/-- Definitions of all kinds, with two repeated names. -/
def definitions : List SchemaDefinition :=
  [.type scalar, .type root, .directive, .type choice, .roots (some "Query") none, .type other]

theorem repeats_definitions : (∀ name, .extension name ∉ definitions) ∧
    Schema.RepeatsFound definitions :=
  have hnone : ∀ name, .extension name ∉ definitions := by
    simp [definitions]
  ⟨hnone, Schema.ofDefinitions_repeated hnone⟩

/-- Of the two, the name that is not exempted is found. -/
example : Schema.ofDefinitions definitions = .error (.duplicateType "Query") := by
  rfl

/-- A document may define integers twice. It is accepted, and the scalar is not found again. -/
theorem replaced :
    [scalar, choice].Sublist (Schema.declared [.type scalar, .type choice, .type root]) ∧
    choice.name = scalar.name ∧
    ∃ schema, Schema.ofDefinitions [.type scalar, .type choice, .type root] = .ok schema ∧
      schema.type? "Int" = some choice := by
  refine ⟨by simp [Schema.declared, SchemaDefinition.typeDef?], rfl, ?_⟩
  exact ⟨_, by rfl, by rfl⟩

end Integers

end FeedGraph
