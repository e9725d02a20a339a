import FeedGraph.Members
import FeedGraph.Json.Number

/-!
# Json: values of JSON, with the order of their members

Objects keep their members in the order in which their names first came up, since answers are
compared as text.
-/

namespace FeedGraph

/-- A value of JSON. -/
inductive Json where
  /-- the null value -/
  | null
  /-- a truth value -/
  | boolean (b : Bool)
  /-- a number -/
  | number (n : Json.Number)
  /-- a text -/
  | string (s : String)
  /-- a list of values -/
  | array (items : List Json)
  /-- an object, its members in order -/
  | object (members : List (String × Json))

namespace Json

instance : Inhabited Json := ⟨.null⟩

/-- A natural number; past the range of integers, the largest of them. -/
def ofNat (n : Nat) : Json := .number (.ofNat n)

def ofString? : Option String → Json
  | some s => .string s
  | none => .null

def isNull : Json → Bool
  | .null => true
  | _ => false

def member? : Json → String → Option Json
  | .object members, name => Members.get? members name
  | _, _ => none

def string? : Json → Option String
  | .string s => some s
  | _ => none

/-- What kind of value something is. -/
inductive Kind where
  | null
  | boolean
  | number
  | string
  | list
  | object
  deriving DecidableEq

def kind : Json → Kind
  | .null => .null
  | .boolean _ => .boolean
  | .number _ => .number
  | .string _ => .string
  | .array _ => .list
  | .object _ => .object

/-- A kind in words. -/
def Kind.text : Kind → String
  | .null => "null"
  | .boolean => "a boolean"
  | .number => "a number"
  | .string => "a string"
  | .list => "a list"
  | .object => "an object"

end Json

end FeedGraph
