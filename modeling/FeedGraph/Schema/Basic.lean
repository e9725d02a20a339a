import FeedGraph.Document.Basic

/-!
# Schema: the types that requests are checked against

A schema is a list of type definitions with different names, among them the scalars every schema
has, and the names of the types that queries and mutations start from.

`Schema.danglingReference?` finds what a field or an argument refers to without its being defined.
-/

namespace FeedGraph

/-- An argument of a field, or a field of an input object. -/
structure InputDef where
  /-- its name -/
  name : String
  /-- its declared type -/
  type : TypeRef
  /-- the value it takes when it is left out, and where that is written -/
  default? : Option (Value × Position)

structure FieldDef where
  /-- its name -/
  name : String
  /-- its declared type -/
  type : TypeRef
  /-- what it is for, in words -/
  description? : Option String
  /-- its arguments, in the order in which they are declared -/
  arguments : List InputDef

/-- What a type consists of. -/
inductive TypeKind where
  /-- values without parts -/
  | scalar
  /-- objects with fields -/
  | object (fields : List FieldDef)
  /-- what several object types have in common -/
  | interface (fields : List FieldDef)
  /-- one of several object types -/
  | union (members : List String)
  /-- one of several names -/
  | enumeration (values : List String)
  /-- objects that are given as arguments -/
  | input (fields : List InputDef)

/-- The fields that can be selected from values of a type. A union has none of its own. -/
def TypeKind.fields : TypeKind → List FieldDef
  | .object fields => fields
  | .interface fields => fields
  | _ => []

structure TypeDef where
  /-- its name -/
  name : String
  /-- what it is for, in words -/
  description? : Option String
  /-- what it consists of -/
  kind : TypeKind

/-- The types that requests are checked against. -/
structure Schema where
  /-- the types, with different names -/
  types : List TypeDef
  /-- the name of the type that queries start from -/
  queryRoot : String
  /-- the name of the type that mutations start from -/
  mutationRoot : String

namespace Schema

/-- The names of the scalars that every schema has. -/
def builtinScalars : List String := ["Int", "Float", "String", "Boolean", "ID"]

def isBuiltin (name : String) : Bool := builtinScalars.contains name

/-- The type with a name. -/
def type? (schema : Schema) (name : String) : Option TypeDef :=
  schema.types.find? (·.name = name)

def defines (schema : Schema) (name : String) : Bool := (schema.type? name).isSome

/-- A field of an object or interface type. -/
def field? (schema : Schema) (type field : String) : Option FieldDef := do
  let definition ← schema.type? type
  definition.kind.fields.find? (·.name = field)

/-- Whether values of a type have no parts: it is a scalar or an enumeration. -/
def isLeaf (schema : Schema) (name : String) : Bool :=
  match schema.type? name with
  | some ⟨_, _, .scalar⟩ => true
  | some ⟨_, _, .enumeration _⟩ => true
  | _ => false

/-- The name of the type that operations of a kind start from, if it is defined. Nothing starts a
subscription. -/
def root? (schema : Schema) : OperationKind → Option String
  | .query => if schema.defines schema.queryRoot then some schema.queryRoot else none
  | .mutation => if schema.defines schema.mutationRoot then some schema.mutationRoot else none
  | .subscription => none

/-! ## References -/

/-- A reference from a field, argument or input field to a type. -/
structure Reference where
  /-- the name of the type referred to -/
  type : String
  /-- what refers to it: a type and a field, and the argument in parentheses -/
  source : String

/-- What a field of a type refers to: the field's type, then those of its arguments. -/
def fieldReferences (type : String) (field : FieldDef) : List Reference :=
  ⟨field.type.underlying, s!"{type}.{field.name}"⟩ ::
    field.arguments.map fun argument =>
      ⟨argument.type.underlying, s!"{type}.{field.name}({argument.name})"⟩

/-- What a definition refers to. The members of a union and the interfaces that a type implements
are not looked up anywhere, and are not among it. -/
def references (definition : TypeDef) : List Reference :=
  match definition.kind with
  | .input fields =>
    fields.map fun field => ⟨field.type.underlying, s!"{definition.name}.{field.name}"⟩
  | kind => kind.fields.flatMap (fieldReferences definition.name)

/-- The first reference to a type that is not defined, in the order of the types. -/
def danglingReference? (schema : Schema) : Option Reference :=
  (schema.types.flatMap references).find? fun reference => !schema.defines reference.type

end Schema

end FeedGraph
