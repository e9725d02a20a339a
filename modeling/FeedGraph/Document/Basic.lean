import FeedGraph.Document.Value
import FeedGraph.Text.Position

/-!
# Document: operations and fragments

The parts of a request document that have a meaning here. Directives are part of the grammar but
have no effect, and are not kept. Everything that an error can point at carries its position.
-/

namespace FeedGraph

/-- A type as it is referred to: a name or a list of another type, and whether null belongs to
it. -/
inductive TypeRef where
  /-- the type with a name -/
  | named (name : String) (nullable : Bool)
  /-- lists of values of a type -/
  | list (item : TypeRef) (nullable : Bool)
  deriving DecidableEq

namespace TypeRef

def nullable : TypeRef → Bool
  | .named _ nullable => nullable
  | .list _ nullable => nullable

/-- The name of the type inside all lists. It is the only part of a type that has to be looked
up. -/
def underlying : TypeRef → String
  | .named name _ => name
  | .list item _ => item.underlying

def text : TypeRef → String
  | .named name nullable => name ++ if nullable then "" else "!"
  | .list item nullable => "[" ++ item.text ++ "]" ++ if nullable then "" else "!"

end TypeRef

/-- What an operation does. -/
inductive OperationKind where
  | query
  | mutation
  | subscription
  deriving DecidableEq

namespace OperationKind

def text : OperationKind → String
  | .query => "query"
  | .mutation => "mutation"
  | .subscription => "subscription"

end OperationKind

/-- An argument as it is given to a field. -/
structure Argument where
  /-- the argument's name -/
  name : String
  /-- what it is given -/
  value : Literal
  /-- where the value stands -/
  position : Position

/-- Something selected: a field, the content of a fragment, or selections in place. -/
inductive Selection where
  /-- a field with its arguments and what is selected of its value; the position is that of the
  alias if there is one -/
  | field (alias? : Option String) (name : String) (arguments : List Argument)
      (selections : List Selection) (position : Position)
  /-- the selections of a named fragment -/
  | spread (fragment : String) (position : Position)
  /-- selections in place, with or without a type condition -/
  | inline (selections : List Selection) (position : Position)

/-- A variable that an operation declares. Its type is kept for whether null belongs to it; what is
supplied is not compared with it. -/
structure VariableDefinition where
  /-- the variable's name, without its dollar sign -/
  name : String
  /-- where the name stands -/
  position : Position
  /-- the declared type -/
  type : TypeRef
  /-- the value it takes when none is supplied -/
  default? : Option Value

structure Operation where
  /-- what it does -/
  kind : OperationKind
  /-- the variables it declares -/
  declared : List VariableDefinition
  /-- what it selects of the root -/
  selections : List Selection
  /-- where it starts -/
  position : Position

/-- A named list of selections on a type. -/
structure Fragment where
  /-- the fragment's name -/
  name : String
  /-- the name of the type it selects from -/
  on : String
  /-- what it selects -/
  selections : List Selection
  /-- where it starts -/
  position : Position

/-- The operations of a document: one without a name, or any number with different names. -/
inductive Operations where
  /-- the only operation, which has no name -/
  | anonymous (operation : Operation)
  /-- operations with their names -/
  | named (operations : List (String × Operation))

structure Document where
  /-- its operations -/
  operations : Operations
  /-- its fragments, which have different names -/
  fragments : List Fragment

/-- The fragment with a name, of which there is one in a document that is read. -/
def Document.fragment? (document : Document) (name : String) : Option Fragment :=
  document.fragments.find? (·.name = name)

end FeedGraph
