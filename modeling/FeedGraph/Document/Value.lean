import FeedGraph.Document.Literal

/-!
# Value: values without variables

What an argument is once its variables are filled in, and what a default is. Numbers of a value say
how they are held: as a signed or an unsigned integer of 64 bits, or as a double; the three are
different values even where they are numerically equal. A member of an enumeration is not the text
with the same characters.

`Value.ofJson` reads JSON directly, `Literal.toValue?` reads a literal that has no variables, and
`Value.toLiteral` writes a value as a literal again.
-/

namespace FeedGraph

/-- A number of a value. -/
inductive Value.Number where
  /-- a signed integer -/
  | int64 (n : Int64)
  /-- an unsigned integer -/
  | uint64 (n : UInt64)
  /-- a double -/
  | double (x : Binary64)
  deriving DecidableEq

/-- A value without variables. -/
inductive Value where
  /-- the null value -/
  | null
  /-- a truth value -/
  | boolean (b : Bool)
  /-- a number -/
  | number (n : Value.Number)
  /-- a text -/
  | string (s : String)
  /-- a member of an enumeration -/
  | enumeration (name : String)
  /-- a list of values -/
  | list (items : List Value)
  /-- an object, its members in order -/
  | object (members : List (String × Value))

namespace Value

instance : Inhabited Value := ⟨.null⟩

namespace Number

/-- A number of JSON: signed if it fits, else unsigned. -/
def ofJson : Json.Number → Number
  | .integer n _ =>
    if n < 0x8000000000000000 then .int64 (Int64.ofInt n) else .uint64 (UInt64.ofNat n.toNat)
  | .double x => .double x

/-- The number of JSON with the same value. How an integer is held does not show in it. -/
def toJson : Number → Json.Number
  | .int64 n => .integer n.toInt (by have := n.le_toInt; have := n.toInt_lt; omega)
  | .uint64 n => .integer n.toNat (by have := n.toNat_lt; omega)
  | .double x => .double x

@[simp] theorem toJson_ofJson (n : Json.Number) : (ofJson n).toJson = n := by
  cases n with
  | double x => rfl
  | integer n hrange =>
    obtain ⟨hlow, hhigh⟩ := hrange
    rw [ofJson]
    split
    · next hsmall =>
      have hsame : (Int64.ofInt n).toInt = n := Int64.toInt_ofInt_of_le hlow hsmall
      simp only [toJson, hsame]
    · next hlarge =>
      have hsame : ((UInt64.ofNat n.toNat).toNat : Int) = n := by
        rw [UInt64.toNat_ofNat']
        omega
      simp only [toJson, hsame]

/-- The number as a signed integer; doubles and unsigned integers out of range are none. -/
def int64? : Number → Option Int64
  | .int64 n => some n
  | .uint64 n => if n.toNat < 0x8000000000000000 then some (Int64.ofNat n.toNat) else none
  | .double _ => none

/-- The nearest double. Both kinds of integers are rounded to it. -/
def double? : Number → Option Binary64
  | .int64 n => Binary64.ofInt? n.toInt
  | .uint64 n => Binary64.ofNat? false n.toNat
  | .double x => some x

/-- Equality as values compare: within one kind, the two zeros among doubles being equal. -/
def same : Number → Number → Bool
  | .int64 a, .int64 b => a = b
  | .uint64 a, .uint64 b => a = b
  | .double x, .double y => x.same y
  | _, _ => false

end Number

/-! ## Access -/

def member? : Value → String → Option Value
  | .object members, name => Members.get? members name
  | _, _ => none

/-- The characters of a text or of a member of an enumeration. -/
def string? : Value → Option String
  | .string s => some s
  | .enumeration name => some name
  | _ => none

def int64? : Value → Option Int64
  | .number n => n.int64?
  | _ => none

def double? : Value → Option Binary64
  | .number n => n.double?
  | _ => none

/-! ## Equality -/

mutual

/-- Equality of values: lists item by item, objects member by member whatever their order. -/
def same : Value → Value → Bool
  | .null, .null => true
  | .boolean a, .boolean b => a = b
  | .number a, .number b => a.same b
  | .string a, .string b => a = b
  | .enumeration a, .enumeration b => a = b
  | .list as, .list bs => sameItems as bs
  | .object as, .object bs => as.length = bs.length && sameMembers as bs
  | _, _ => false

def sameItems : List Value → List Value → Bool
  | [], [] => true
  | a :: as, b :: bs => a.same b && sameItems as bs
  | _, _ => false

def sameMembers : List (String × Value) → List (String × Value) → Bool
  | [], _ => true
  | (name, a) :: rest, bs =>
    (match Members.get? bs name with
      | some b => a.same b
      | none => false) && sameMembers rest bs

end

/-- Equality of members whatever their order. As many of them are compared as there are on both
sides, so that with different names none is left out. -/
def sameObject (as bs : Members Value) : Bool := as.length = bs.length && sameMembers as bs

/-! ## Conversions -/

mutual

/-- A value of JSON; a text stays a text. -/
def ofJson : Json → Value
  | .null => .null
  | .boolean b => .boolean b
  | .number n => .number (.ofJson n)
  | .string s => .string s
  | .array items => .list (ofItems items)
  | .object members => .object (ofMembers members)

def ofItems : List Json → List Value
  | [] => []
  | item :: rest => ofJson item :: ofItems rest

def ofMembers : List (String × Json) → List (String × Value)
  | [] => []
  | (name, value) :: rest => (name, ofJson value) :: ofMembers rest

end

mutual

/-- The plain JSON of a value; a member of an enumeration becomes a text. -/
def toJson : Value → Json
  | .null => .null
  | .boolean b => .boolean b
  | .number n => .number n.toJson
  | .string s => .string s
  | .enumeration name => .string name
  | .list items => .array (toItems items)
  | .object members => .object (toMembers members)

def toItems : List Value → List Json
  | [] => []
  | item :: rest => toJson item :: toItems rest

def toMembers : List (String × Value) → List (String × Json)
  | [] => []
  | (name, value) :: rest => (name, toJson value) :: toMembers rest

end

mutual

/-- A value as a literal, which has no variables. Kinds of numbers are not kept, but everything else
is. -/
def toLiteral : Value → Literal
  | .null => .null
  | .boolean b => .boolean b
  | .number n => .number n.toJson
  | .string s => .string s
  | .enumeration name => .enumeration name
  | .list items => .list (toLiterals items)
  | .object members => .object (toLiteralMembers members)

def toLiterals : List Value → List Literal
  | [] => []
  | item :: rest => toLiteral item :: toLiterals rest

def toLiteralMembers : List (String × Value) → List (String × Literal)
  | [] => []
  | (name, value) :: rest => (name, toLiteral value) :: toLiteralMembers rest

end

end Value

namespace Literal

mutual

/-- The value of a literal, or the first variable in it. -/
def toValue : Literal → Except String Value
  | .variable name => .error name
  | .null => .ok .null
  | .number n => .ok (.number (.ofJson n))
  | .string s => .ok (.string s)
  | .boolean b => .ok (.boolean b)
  | .enumeration name => .ok (.enumeration name)
  | .list items => (toValues items).map .list
  | .object members => (toValueMembers members).map .object

def toValues : List Literal → Except String (List Value)
  | [] => .ok []
  | item :: rest =>
    match toValue item with
    | .error name => .error name
    | .ok value => (toValues rest).map (value :: ·)

def toValueMembers : List (String × Literal) → Except String (List (String × Value))
  | [] => .ok []
  | (name, literal) :: rest =>
    match toValue literal with
    | .error name => .error name
    | .ok value => (toValueMembers rest).map ((name, value) :: ·)

end

def toValue? (literal : Literal) : Option Value := literal.toValue.toOption

mutual

/-- Puts the values of bound variables in their places; unbound variables stay, to be treated where
a type is known. -/
def bind (bindings : Members Value) : Literal → Literal
  | .variable name =>
    match Members.get? bindings name with
    | some value => value.toLiteral
    | none => .variable name
  | .list items => .list (bindItems bindings items)
  | .object members => .object (bindMembers bindings members)
  | .null => .null
  | .number n => .number n
  | .string s => .string s
  | .boolean b => .boolean b
  | .enumeration name => .enumeration name

def bindItems (bindings : Members Value) : List Literal → List Literal
  | [] => []
  | item :: rest => bind bindings item :: bindItems bindings rest

def bindMembers (bindings : Members Value) : List (String × Literal) → List (String × Literal)
  | [] => []
  | (name, literal) :: rest => (name, bind bindings literal) :: bindMembers bindings rest

end

end Literal

end FeedGraph
