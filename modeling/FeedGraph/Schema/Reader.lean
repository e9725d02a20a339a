import FeedGraph.Schema.Basic
import FeedGraph.Document.Token

/-!
# Reader: schemas from text

`Schema.ofDefinitions` builds a schema from the definitions of a schema document, and
`Schema.ofText` reads such a document first. The scalars that every schema has need no definition; a
document may define them again. A definition of the roots names the types that operations start
from, instead of `Query` and `Mutation`.
-/

namespace FeedGraph

/-- A definition in a schema document. Directives are read, and leave nothing. -/
inductive SchemaDefinition where
  /-- a type -/
  | type (definition : TypeDef)
  /-- additions to the type with a name -/
  | extension (type : String)
  /-- the roots of queries and mutations, where they are named -/
  | roots (query? mutation? : Option String)
  /-- a directive, which has no effect -/
  | directive

/-- Why there is no schema. -/
inductive SchemaError where
  /-- the text breaks the grammar, or keeps to it but is refused -/
  | malformed (reason : String)
  /-- two definitions have the same name -/
  | duplicateType (name : String)
  /-- something is added to a type -/
  | unsupportedExtension (name : String)
  /-- something refers to a type that is not defined -/
  | unknownType (name source : String)

namespace SchemaError

/-- The wording of a fault; for a number, what is said of the text. -/
def faultText (complaint : Complaint) : GrammarFault → String
  | .invalidNumber _ => complaint.message
  | .tooDeep => "too deeply nested"
  | .repeatedRoot kind => s!"multiple {kind.text} roots in schema definition"
  | .missingQueryRoot => "schema definition is missing query root"

def message : SchemaError → String
  | .malformed reason => "Failed to parse schema: " ++ reason
  | .duplicateType name => s!"Type '{name}' is defined more than once"
  | .unsupportedExtension name => s!"Type extensions are not supported (extending '{name}')"
  | .unknownType name source => s!"Unknown type '{name}' referenced by '{source}'"

end SchemaError

namespace Grammar

def description : P (Option String) := Parser.optional string

def block {α : Type} (p : P α) : P (List α) := do
  mark "\x7b"
  let xs ← Parser.many1 p
  mark "\x7d"
  return xs

/-- One or more of something, with a mark between any two and perhaps before the first. -/
def separated {α : Type} (p : P α) (separator : String) : P (List α) := do
  let _ ← Parser.optional (mark separator)
  Parser.sepBy1 p (mark separator)

/-! ## Fields and arguments -/

def inputDefinition : P InputDef := do
  let _ ← description
  let n ← name
  mark ":"
  let t ← type
  let default? ← Parser.optional defaultValue
  directives false
  return ⟨n, t, default?⟩

def argumentDefinitions : P (List InputDef) := do
  mark "("
  let as ← Parser.many1 inputDefinition
  mark ")"
  return as

def fieldDefinition : P FieldDef := do
  let description? ← description
  let n ← name
  let as ← Parser.optional argumentDefinitions
  mark ":"
  let t ← type
  directives false
  return ⟨n, t, description?, as.getD []⟩

def fieldDefinitions : P (List FieldDef) := block fieldDefinition

/-- The interfaces that a type implements. They are read and dropped. -/
def interfaces : P Unit := do
  mark "implements"
  let _ ← separated name "&"

def unionMembers : P (List String) := mark "=" *> separated name "|"

def enumerationValues : P (List String) :=
  block do
    let _ ← description
    let v ← enumerationValue
    directives false
    return v

def inputFields : P (List InputDef) := block inputDefinition

/-! ## Types -/

/-- A type definition: its keyword, its name and its content. All kinds of types are written like
this, apart from what stands behind the name. -/
def typeDefinition (keyword : String) (content : P TypeKind) : P SchemaDefinition := do
  let description? ← description
  mark keyword
  let n ← name
  let kind ← content
  return .type ⟨n, description?, kind⟩

def typeExtension {α : Type} (keyword : String) (content : P α) : P SchemaDefinition := do
  mark "extend"
  mark keyword
  let n ← name
  let _ ← content
  return .extension n

/-- What may be added to a type besides interfaces: directives, its content, or both. -/
def additions {α : Type} (content : P α) : P Unit :=
  (directives false *> (fun _ => ()) <$> content) <|> directives1 false

def scalarType : P SchemaDefinition :=
  typeDefinition "scalar" (directives false *> pure .scalar) <|>
  typeExtension "scalar" (directives1 false)

def fieldContent : P (List FieldDef) := do
  let _ ← Parser.optional interfaces
  directives false
  let fields ← Parser.optional fieldDefinitions
  return fields.getD []

def objectType : P SchemaDefinition :=
  typeDefinition "type" (.object <$> fieldContent) <|>
  typeExtension "type" ((Parser.optional interfaces *> additions fieldDefinitions) <|> interfaces)

def interfaceType : P SchemaDefinition :=
  typeDefinition "interface" (.interface <$> fieldContent) <|>
  typeExtension "interface" (Parser.optional interfaces *> additions fieldDefinitions)

def unionType : P SchemaDefinition :=
  typeDefinition "union" (do
    directives false
    let members ← Parser.optional unionMembers
    return .union (members.getD [])) <|>
  typeExtension "union" (additions unionMembers)

def enumerationType : P SchemaDefinition :=
  typeDefinition "enum" (do
    directives false
    let values ← Parser.optional enumerationValues
    return .enumeration (values.getD [])) <|>
  typeExtension "enum" (additions enumerationValues)

def inputType : P SchemaDefinition :=
  typeDefinition "input" (do
    directives false
    let fields ← Parser.optional inputFields
    return .input (fields.getD [])) <|>
  typeExtension "input" (additions inputFields)

/-! ## Roots and directives -/

/-- The roots of some operations. A second root for one kind of operation is a fault. -/
def rootEntries : P (Members String) := do
  let entry : P (OperationKind × String) := do
    let kind ← operationKind
    mark ":"
    let n ← name
    return (kind, n)
  let entries ← block entry
  entries.foldlM
    (fun roots (kind, n) => do
      if Members.has roots kind.text then
        Parser.blame (.repeatedRoot kind)
      return Members.set roots kind.text n) []

def namedRoots (roots : Members String) : SchemaDefinition :=
  .roots (Members.get? roots OperationKind.query.text)
    (Members.get? roots OperationKind.mutation.text)

/-- A definition of the roots, which has to name one for queries, or additions to it. -/
def rootsDefinition : P SchemaDefinition :=
  (do
    mark "schema"
    directives false
    let roots ← rootEntries
    if !Members.has roots OperationKind.query.text then
      Parser.blame .missingQueryRoot
    return namedRoots roots) <|>
  (do
    mark "extend"
    mark "schema"
    namedRoots <$> (directives false *> rootEntries) <|>
      (directives1 false *> pure (namedRoots [])))

/-- Where directives may stand. Of two names that start alike, the longer comes first. -/
def directiveLocations : List String :=
  ["QUERY", "MUTATION", "SUBSCRIPTION", "FIELD_DEFINITION", "FIELD", "FRAGMENT_DEFINITION",
    "FRAGMENT_SPREAD", "INLINE_FRAGMENT", "VARIABLE_DEFINITION", "SCHEMA", "SCALAR", "OBJECT",
    "ARGUMENT_DEFINITION", "INTERFACE", "UNION", "ENUM_VALUE", "ENUM", "INPUT_OBJECT",
    "INPUT_FIELD_DEFINITION"]

def directiveLocation : P Unit :=
  directiveLocations.foldr (fun location others => mark location <|> others) failure

def directiveDefinition : P SchemaDefinition := do
  let _ ← description
  mark "directive"
  mark "@"
  let _ ← name
  let _ ← Parser.optional argumentDefinitions
  let _ ← Parser.optional (mark "repeatable")
  mark "on"
  let _ ← separated directiveLocation "|"
  return .directive

def schemaDocument : P (List SchemaDefinition) :=
  ignored *> Parser.many1
    (rootsDefinition <|> scalarType <|> objectType <|> interfaceType <|> unionType <|>
      enumerationType <|> inputType <|> directiveDefinition)

end Grammar

namespace Schema

/-- The schema of an empty document. -/
def initial : Schema :=
  { types := builtinScalars.map fun name => ⟨name, none, .scalar⟩
    queryRoot := "Query"
    mutationRoot := "Mutation" }

def replaceType (schema : Schema) (definition : TypeDef) : Schema :=
  { schema with
    types := schema.types.map fun t => if t.name = definition.name then definition else t }

/-- Adds a type. One that every schema has is replaced; other names have to be new. Whether the
replaced type is still the one that every schema has is not asked. -/
def addType (schema : Schema) (definition : TypeDef) : Except SchemaError Schema :=
  if schema.defines definition.name then
    if isBuiltin definition.name then .ok (schema.replaceType definition)
    else .error (.duplicateType definition.name)
  else .ok { schema with types := schema.types ++ [definition] }

def add (schema : Schema) : SchemaDefinition → Except SchemaError Schema
  | .type definition => schema.addType definition
  | .extension name => .error (.unsupportedExtension name)
  | .roots query? mutation? =>
    .ok { schema with
      queryRoot := query?.getD schema.queryRoot
      mutationRoot := mutation?.getD schema.mutationRoot }
  | .directive => .ok schema

/-- The schema that some definitions make up, if everything they refer to is defined. Names are
compared while definitions are added, references are looked up behind the last. -/
def ofDefinitions (definitions : List SchemaDefinition) : Except SchemaError Schema := do
  let schema ← definitions.foldlM add initial
  match schema.danglingReference? with
  | some reference => throw (.unknownType reference.type reference.source)
  | none => return schema

/-- The schema that a text stands for. The words for a text that breaks the grammar are given. -/
def ofText (complain : String → Complaint) (text : String) : Except SchemaError Schema :=
  match Grammar.schemaDocument.run text with
  | none => .error (.malformed (complain text).message)
  | some (_, some fault) => .error (.malformed (SchemaError.faultText (complain text) fault))
  | some (definitions, none) => ofDefinitions definitions

end Schema

end FeedGraph
