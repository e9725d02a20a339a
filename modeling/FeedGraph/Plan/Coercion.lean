import FeedGraph.Plan.Rejection
import FeedGraph.Schema.Basic

/-!
# Coercion: from literals to values of declared types

Variables that have a value are replaced by it before anything here happens (`Literal.bind`), so
that a variable that is still there has none. An argument that is such a variable counts as left out
where it may be; inside lists and objects such a variable counts as null where null is allowed.

`Coercion.coerce` turns a literal into a *reading*: what it is as a value of any type. That keeps
the recursion on the literal alone. What is not part of the literal are the defaults of the input
fields it leaves out; they are read by a function that is passed in, and `Coercion.readDefault` ties
the knot. A default may leave out fields with defaults of their own, and those may lead back to it;
then there is no value, however often defaults are followed.
-/

namespace FeedGraph

namespace Coercion

/-- What a literal is as a value of a type, for the argument of a name, at a place. The name and the
place are for what is said if it is none. -/
abbrev Reading : Type := TypeRef → String → Position → Except Rejection Value

/-- Reads the default of an argument or input field. -/
abbrev DefaultReader : Type := InputDef → Value → Position → Except Rejection Value

/-- Something given for an argument. -/
structure Supplied where
  /-- the literal that is given -/
  literal : Literal
  /-- where it stands -/
  position : Position
  /-- what it is as a value -/
  reading : Reading

/-! ## Names and lists -/

/-- Reads a type: the name inside all lists is read as given, and every list around it holds that
one value. -/
def wrapped (inner : String → Except Rejection Value) : TypeRef → Except Rejection Value
  | .named name _ => inner name
  | .list item _ => (wrapped inner item).map fun value => .list [value]

def coerceNumber (type : String) (n : Json.Number) : Option Value :=
  match type, n with
  | "Int", .integer i _ =>
    if Literal.Int32Range i then some (.number (.ofJson n)) else none
  | "Float", _ => some (.number (.ofJson n))
  | "ID", .integer i _ => some (.string (toString i))
  | _, _ => none

/-- A literal as a value of a scalar that every schema has. The order of the cases does not matter:
each scalar takes literals of its own kinds, of which ids have two. -/
def coerceBuiltin (type : String) : Literal → Option Value
  | .number n => coerceNumber type n
  | .string s => if type = "String" ∨ type = "ID" then some (.string s) else none
  | .boolean b => if type = "Boolean" then some (.boolean b) else none
  | _ => none

/-- A literal as a value of a scalar that the schema defines, which takes everything. Without a type
inside, a variable without a value cannot be null here and is refused. -/
def coerceOpaque (literal : Literal) (position : Position) : Except Rejection Value :=
  match literal.toValue with
  | .ok value => .ok value
  | .error name => .error (.variableNotFound name position)

/-! ## Arguments -/

/-- The argument that is given: nothing if there is none, or if it is a variable without a value
that may be left out. -/
def given? (definition : InputDef) : Option Supplied → Except Rejection (Option Supplied)
  | some ⟨.variable name, position, _⟩ =>
    if definition.type.nullable ∨ definition.default?.isSome then .ok none
    else .error (.variableNotFound name position)
  | other => .ok other

/-- The value of one argument: what is given for it, else its default, else nothing if null is
allowed. -/
def coerceArgument (readDefault : DefaultReader) (place : Position) (definition : InputDef)
    (supplied? : Option Supplied) : Except Rejection (Option Value) := do
  match ← given? definition supplied? with
  | some supplied =>
    some <$> supplied.reading definition.type definition.name supplied.position
  | none =>
    match definition.default? with
    | some (value, position) => some <$> readDefault definition value position
    | none =>
      if definition.type.nullable then return none
      else throw (.missingArgument definition.name place)

/-- The values of declared arguments, in the order in which they are declared, and what is given but
not declared. What is given for a declaration is taken out, so that a second declaration of the name
does not find it. -/
def coerceDeclared (readDefault : DefaultReader) (place : Position) :
    List InputDef → Members Supplied → Members Value →
      Except Rejection (Members Value × Members Supplied)
  | [], supplied, values => .ok (values, supplied)
  | definition :: rest, supplied, values => do
    let value? ← coerceArgument readDefault place definition (Members.get? supplied definition.name)
    let values := match value? with
      | some value => Members.set values definition.name value
      | none => values
    coerceDeclared readDefault place rest (Members.erase supplied definition.name) values

/-- The values of arguments, each given at most once and all of them declared. The name of a type,
which clients send back with objects they got, is no argument. -/
def coerceArguments (readDefault : DefaultReader) (place : Position) (definitions : List InputDef)
    (pairs : List (String × Supplied)) (owner : String) : Except Rejection (Members Value) := do
  let supplied := Members.ofPairs (pairs.filter (·.1 ≠ "__typename"))
  let (values, stray) ← coerceDeclared readDefault place definitions supplied []
  if stray.isEmpty then return values
  else throw (.strayArguments (Members.names stray) owner place)

/-! ## Literals -/

/-- A literal as a value of the type with a name; the members of an object are read as given. A
literal of a kind that the type does not take is a mismatch, and so is everything for a type that is
not defined or is not one for input. -/
def coerceNamed (schema : Schema) (readDefault : DefaultReader) (place : Position)
    (literal : Literal) (members : List (String × (Literal × Reading))) (name : String)
    (argument : String) (position : Position) : Except Rejection Value :=
  let mismatch : Except Rejection Value := .error (.mismatch argument name literal.kind position)
  match schema.type? name with
  | none => mismatch
  | some definition =>
    match definition.kind, literal with
    | .scalar, _ =>
      if Schema.isBuiltin name then
        match coerceBuiltin name literal with
        | some value => .ok value
        | none => mismatch
      else coerceOpaque literal position
    | .enumeration values, .enumeration value =>
      if values.contains value then .ok (.enumeration value) else mismatch
    | .input fields, .object _ =>
      let supplied := members.map fun (n, l, reading) => (n, ⟨l, position, reading⟩)
      .object <$> coerceArguments readDefault place fields supplied argument
    | _, _ => mismatch

mutual

/-- What a literal is as a value of any type. Null is a value of the types that allow it; a list is
read item by item where a list is wanted; anything else is read as the type inside all lists. -/
def coerce (schema : Schema) (readDefault : DefaultReader) (place : Position) : Literal → Reading
  | .variable name => fun type _ position =>
    if type.nullable then .ok .null else .error (.variableNotFound name position)
  | .null => fun type argument position =>
    if type.nullable then .ok .null else .error (.missingArgument argument position)
  | .list items =>
    let readings := coerceItems schema readDefault place items
    fun type argument position =>
      match type with
      | .list item _ => .list <$> readings.mapM fun reading => reading item argument position
      | .named name _ =>
        coerceNamed schema readDefault place (.list items) [] name argument position
  | .object members =>
    let readings := coerceMembers schema readDefault place members
    fun type argument position =>
      wrapped (coerceNamed schema readDefault place (.object members) readings · argument position)
        type
  | .number n => fun type argument position =>
    wrapped (coerceNamed schema readDefault place (.number n) [] · argument position) type
  | .string s => fun type argument position =>
    wrapped (coerceNamed schema readDefault place (.string s) [] · argument position) type
  | .boolean b => fun type argument position =>
    wrapped (coerceNamed schema readDefault place (.boolean b) [] · argument position) type
  | .enumeration value => fun type argument position =>
    wrapped (coerceNamed schema readDefault place (.enumeration value) [] · argument position) type

def coerceItems (schema : Schema) (readDefault : DefaultReader) (place : Position) :
    List Literal → List Reading
  | [] => []
  | item :: rest =>
    coerce schema readDefault place item :: coerceItems schema readDefault place rest

def coerceMembers (schema : Schema) (readDefault : DefaultReader) (place : Position) :
    List (String × Literal) → List (String × (Literal × Reading))
  | [] => []
  | (name, literal) :: rest =>
    (name, literal, coerce schema readDefault place literal) ::
      coerceMembers schema readDefault place rest

end

/-! ## Defaults -/

/-- Reads a default, following the defaults that it needs in turn at most so often. The default is
written as a literal and read at the type of its declaration, as if it had been given. -/
def readDefault (schema : Schema) (place : Position) : Nat → DefaultReader
  | 0, definition, _, position => .error (.endlessDefault definition.name position)
  | steps + 1, definition, value, position =>
    coerce schema (readDefault schema place steps) place value.toLiteral definition.type
      definition.name position

/-- The number of input fields that have a default. -/
def defaultCount (schema : Schema) : Nat :=
  (schema.types.flatMap fun definition =>
    match definition.kind with
    | .input fields => fields.filter (·.default?.isSome)
    | _ => []).length

/-- The values of a field's arguments, following defaults at most so often. -/
def argumentsWithin (steps : Nat) (schema : Schema) (bindings : Members Value) (field : String)
    (place : Position) (definitions : List InputDef) (arguments : List Argument) :
    Except Rejection (Members Value) :=
  let reader := readDefault schema place steps
  let supplied := arguments.map fun argument =>
    let literal := argument.value.bind bindings
    (argument.name, Supplied.mk literal argument.position (coerce schema reader place literal))
  coerceArguments reader place definitions supplied field

/-- The values of a field's arguments. A chain of defaults that is longer than there are input
fields with defaults, and one argument that leads to them, meets one of them twice and goes on like
that for ever. -/
def coerceAll (schema : Schema) (bindings : Members Value) (field : String) (place : Position)
    (definitions : List InputDef) (arguments : List Argument) : Except Rejection (Members Value) :=
  argumentsWithin (defaultCount schema + 1) schema bindings field place definitions arguments

end Coercion

end FeedGraph
