import FeedGraph.Document.Basic

/-!
# Field: what an accepted operation selects

A planned field has its declared type, its arguments as values and the fields that are selected of
its value. Fragments and variables are gone.
-/

namespace FeedGraph

/-- A field that is selected, checked against the schema. -/
structure PlannedField where
  /-- the name it is to have in the answer, if that is not its own -/
  alias? : Option String
  /-- its name -/
  name : String
  /-- its declared type -/
  type : TypeRef
  /-- its arguments, in the order in which they are declared -/
  arguments : List (String × Value)
  /-- what is selected of its value -/
  fields : List PlannedField
  /-- where it stands in the document -/
  position : Position

namespace PlannedField

/-- The name of the field that gives the name of a type. -/
def typename : String := "__typename"

/-- The name under which the field's value is answered. -/
def output (field : PlannedField) : String := field.alias?.getD field.name

mutual

/-- The number of fields in a field: itself and what is selected of its value. -/
def size : PlannedField → Nat
  | ⟨_, _, _, _, fields, _⟩ => sizes fields + 1

def sizes : List PlannedField → Nat
  | [] => 0
  | field :: rest => field.size + sizes rest

end

end PlannedField

/-- An accepted operation. -/
structure Plan where
  /-- its name, if it has one or was asked for by one -/
  name? : Option String
  /-- what it does -/
  kind : OperationKind
  /-- what it selects of the root -/
  fields : List PlannedField

end FeedGraph
