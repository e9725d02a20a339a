import FeedGraph.Document.Value

/-!
# Constant: values as they are held until they are asked for

A constant is what a variable stands for, or a default as it is written. Its numbers are those of
JSON, which do not say how they will be held, and it may be made of bytes, for which there is no
value. `Constant.ofJson` reads JSON, and `Constant.toValue` makes a value of a constant.
-/

namespace FeedGraph

/-- A value as it is held until it is asked for. -/
inductive Constant where
  /-- the null value -/
  | null
  /-- a number -/
  | number (n : Json.Number)
  /-- a text -/
  | string (s : String)
  /-- a truth value -/
  | boolean (b : Bool)
  /-- some bytes -/
  | binary (bytes : ByteArray)
  /-- a member of an enumeration -/
  | enumeration (name : String)
  /-- a list of constants -/
  | list (items : List Constant)
  /-- an object, its members in order -/
  | object (members : List (String × Constant))

namespace Constant

mutual

/-- A value of JSON as a constant. -/
def ofJson : Json → Constant
  | .null => .null
  | .boolean b => .boolean b
  | .number n => .number n
  | .string s => .string s
  | .array items => .list (ofItems items)
  | .object members => .object (ofMembers members)

def ofItems : List Json → List Constant
  | [] => []
  | item :: rest => ofJson item :: ofItems rest

def ofMembers : List (String × Json) → List (String × Constant)
  | [] => []
  | (name, value) :: rest => (name, ofJson value) :: ofMembers rest

end

mutual

/-- The value of a constant, or why it has none. Bytes are the only thing that has none, so that a
list or an object has none only for bytes inside of it. -/
def toValue : Constant → Except String Value
  | .null => .ok .null
  | .number n => .ok (.number (.ofJson n))
  | .string s => .ok (.string s)
  | .boolean b => .ok (.boolean b)
  | .binary _ => .error "Binary is not supported"
  | .enumeration name => .ok (.enumeration name)
  | .list items => (toValues items).map .list
  | .object members => (toValueMembers members).map .object

def toValues : List Constant → Except String (List Value)
  | [] => .ok []
  | item :: rest =>
    match toValue item with
    | .error reason => .error reason
    | .ok value => (toValues rest).map (value :: ·)

def toValueMembers : List (String × Constant) → Except String (List (String × Value))
  | [] => .ok []
  | (name, constant) :: rest =>
    match toValue constant with
    | .error reason => .error reason
    | .ok value => (toValueMembers rest).map ((name, value) :: ·)

end

end Constant

namespace Value

mutual

/-- A value as a constant. How a number is held is forgotten. -/
def toConstant : Value → Constant
  | .null => .null
  | .boolean b => .boolean b
  | .number n => .number n.toJson
  | .string s => .string s
  | .enumeration name => .enumeration name
  | .list items => .list (toConstants items)
  | .object members => .object (toConstantMembers members)

def toConstants : List Value → List Constant
  | [] => []
  | item :: rest => toConstant item :: toConstants rest

def toConstantMembers : List (String × Value) → List (String × Constant)
  | [] => []
  | (name, value) :: rest => (name, toConstant value) :: toConstantMembers rest

end

end Value

namespace Literal

mutual

/-- A literal as a constant, with constants for its variables, or the first variable that has
none. -/
def toConstant (constants : Members Constant) : Literal → Except String Constant
  | .variable name =>
    match Members.get? constants name with
    | some constant => .ok constant
    | none => .error name
  | .null => .ok .null
  | .number n => .ok (.number n)
  | .string s => .ok (.string s)
  | .boolean b => .ok (.boolean b)
  | .enumeration name => .ok (.enumeration name)
  | .list items => (toConstants constants items).map .list
  | .object members => (toConstantMembers constants members).map .object

def toConstants (constants : Members Constant) : List Literal → Except String (List Constant)
  | [] => .ok []
  | item :: rest =>
    match toConstant constants item with
    | .error name => .error name
    | .ok constant => (toConstants constants rest).map (constant :: ·)

def toConstantMembers (constants : Members Constant) :
    List (String × Literal) → Except String (List (String × Constant))
  | [] => .ok []
  | (name, literal) :: rest =>
    match toConstant constants literal with
    | .error name => .error name
    | .ok constant => (toConstantMembers constants rest).map ((name, constant) :: ·)

end

end Literal

end FeedGraph
