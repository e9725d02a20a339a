import FeedGraph.Document.Value

/-!
# Tagged: values as JSON that tells their kinds apart

Plain JSON cannot tell a member of an enumeration from a text, nor an integer held signed from one
held unsigned. In tagged JSON every value but null is an object with one member, whose name is the
kind.

`Value.ofTagged?` reads back what `Value.toTagged` writes (`ofTagged?_toTagged`).
-/

namespace FeedGraph.Value

namespace Number

/-- A number with its tag. -/
def toTagged : Number → Json
  | .int64 n => .object [("I64", .number (toJson (.int64 n)))]
  | .uint64 n => .object [("U64", .number (toJson (.uint64 n)))]
  | .double x => .object [("F64", .number (.double x))]

/-- A number of JSON under a tag. An integer under the tag of doubles is rounded. -/
def ofTag? : String → Json.Number → Option Number
  | "I64", .integer n _ => if n < 0x8000000000000000 then some (.int64 (Int64.ofInt n)) else none
  | "U64", .integer n _ => if 0 ≤ n then some (.uint64 (UInt64.ofNat n.toNat)) else none
  | "F64", n => (ofJson n).double?.map .double
  | _, _ => none

def ofTagged? : Json → Option Number
  | .object [(tag, .number n)] => ofTag? tag n
  | _ => none

end Number

mutual

/-- A value with its tag. -/
def toTagged : Value → Json
  | .null => .string "Null"
  | .boolean b => .object [("Bool", .boolean b)]
  | .number n => .object [("Number", n.toTagged)]
  | .string s => .object [("String", .string s)]
  | .enumeration name => .object [("Enum", .string name)]
  | .list items => .object [("List", .array (toTaggedItems items))]
  | .object members => .object [("Object", .object (toTaggedMembers members))]

def toTaggedItems : List Value → List Json
  | [] => []
  | item :: rest => toTagged item :: toTaggedItems rest

def toTaggedMembers : List (String × Value) → List (String × Json)
  | [] => []
  | (name, value) :: rest => (name, toTagged value) :: toTaggedMembers rest

end

mutual

/-- The value that tagged JSON stands for. An object has to have one member, whose name is a tag
that its value goes with. -/
def ofTagged? : Json → Option Value
  | .string tag => if tag = "Null" then some .null else none
  | .object [(tag, .null)] => if tag = "Null" then some .null else none
  | .object [(tag, .boolean b)] => if tag = "Bool" then some (.boolean b) else none
  | .object [(tag, .string s)] =>
    if tag = "String" then some (.string s)
    else if tag = "Enum" then some (.enumeration s)
    else none
  | .object [(tag, .array items)] =>
    if tag = "List" then (ofTaggedItems? items).map .list else none
  | .object [(tag, .object members)] =>
    if tag = "Number" then (Number.ofTagged? (.object members)).map .number
    else if tag = "Object" then (ofTaggedMembers? members).map .object
    else none
  | _ => none

def ofTaggedItems? : List Json → Option (List Value)
  | [] => some []
  | item :: rest =>
    match ofTagged? item with
    | none => none
    | some value => (ofTaggedItems? rest).map (value :: ·)

def ofTaggedMembers? : List (String × Json) → Option (List (String × Value))
  | [] => some []
  | (name, json) :: rest =>
    match ofTagged? json with
    | none => none
    | some value => (ofTaggedMembers? rest).map ((name, value) :: ·)

end

/-! ## Reading what is written -/

theorem Number.ofTagged?_toTagged (n : Number) : Number.ofTagged? n.toTagged = some n := by
  cases n with
  | int64 n => simpa [toTagged, ofTagged?, ofTag?, toJson] using Int64.toInt_lt n
  | uint64 n => simp [toTagged, ofTagged?, ofTag?, toJson]
  | double x => simp [toTagged, ofTagged?, ofTag?, ofJson, double?]

mutual

/-- The induction is on the value; that nothing else is read as it is `Value.toTagged_lossless`. -/
theorem ofTagged?_toTagged (value : Value) : ofTagged? value.toTagged = some value := by
  cases value with
  | null => simp [toTagged, ofTagged?]
  | boolean b => simp [toTagged, ofTagged?]
  | number n =>
    have h := Number.ofTagged?_toTagged n
    cases n <;> simp [toTagged, ofTagged?, Number.toTagged] at h ⊢ <;> exact h
  | string s => simp [toTagged, ofTagged?]
  | enumeration name => simp [toTagged, ofTagged?]
  | list items => simp [toTagged, ofTagged?, ofTaggedItems?_toTaggedItems items]
  | object members => simp [toTagged, ofTagged?, ofTaggedMembers?_toTaggedMembers members]

theorem ofTaggedItems?_toTaggedItems (items : List Value) :
    ofTaggedItems? (toTaggedItems items) = some items := by
  match items with
  | [] => rfl
  | item :: rest =>
    simp [toTaggedItems, ofTaggedItems?, ofTagged?_toTagged item, ofTaggedItems?_toTaggedItems rest]

theorem ofTaggedMembers?_toTaggedMembers (members : List (String × Value)) :
    ofTaggedMembers? (toTaggedMembers members) = some members := by
  match members with
  | [] => rfl
  | (name, value) :: rest =>
    simp [toTaggedMembers, ofTaggedMembers?, ofTagged?_toTagged value,
      ofTaggedMembers?_toTaggedMembers rest]

end
end FeedGraph.Value
