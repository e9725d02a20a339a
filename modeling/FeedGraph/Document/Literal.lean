import FeedGraph.Json.Basic

/-!
# Literal: values as they are written in documents

A literal may contain variables. `Literal.Kind` names what a literal is for messages about values of
the wrong type.
-/

namespace FeedGraph

/-- A value written in a document. The members of an object have different names. -/
inductive Literal where
  /-- a variable, without its dollar sign -/
  | variable (name : String)
  /-- the null value -/
  | null
  /-- a number -/
  | number (n : Json.Number)
  /-- a text -/
  | string (s : String)
  /-- a truth value -/
  | boolean (b : Bool)
  /-- a member of some enumeration -/
  | enumeration (name : String)
  /-- a list of values -/
  | list (items : List Literal)
  /-- an object, its members in order -/
  | object (members : List (String × Literal))

namespace Literal

instance : Inhabited Literal := ⟨.null⟩

mutual

/-- A value of JSON as a literal; a text stays a text and is no member of an enumeration. -/
def ofJson : Json → Literal
  | .null => .null
  | .boolean b => .boolean b
  | .number n => .number n
  | .string s => .string s
  | .array items => .list (ofItems items)
  | .object members => .object (ofMembers members)

def ofItems : List Json → List Literal
  | [] => []
  | item :: rest => ofJson item :: ofItems rest

def ofMembers : List (String × Json) → List (String × Literal)
  | [] => []
  | (name, value) :: rest => (name, ofJson value) :: ofMembers rest

end

/-- What a literal is, as far as messages tell kinds apart. -/
inductive Kind where
  | variable
  | null
  | double
  /-- an integer that has more than 32 bits -/
  | wideInteger
  | integer
  | string
  | boolean
  | enumeration
  | list
  | object
  deriving DecidableEq

abbrev Int32Range (n : Int) : Prop := -0x80000000 ≤ n ∧ n < 0x80000000

/-- The kind of a number. Integers that are out of range for the scalar of integers are told apart
from those that are in range. -/
def numberKind : Json.Number → Kind
  | .integer n _ => if Int32Range n then .integer else .wideInteger
  | .double _ => .double

def kind : Literal → Kind
  | .variable _ => .variable
  | .null => .null
  | .number n => numberKind n
  | .string _ => .string
  | .boolean _ => .boolean
  | .enumeration _ => .enumeration
  | .list _ => .list
  | .object _ => .object

def Kind.text : Kind → String
  | .variable => "Variable"
  | .null => "null"
  | .double => "Float"
  | .wideInteger => "Int outside the 32-bit range"
  | .integer => "Int"
  | .string => "String"
  | .boolean => "Boolean"
  | .enumeration => "Enum"
  | .list => "List"
  | .object => "Object"

end Literal

end FeedGraph
