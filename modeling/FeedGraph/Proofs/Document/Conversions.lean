import FeedGraph.Document.Constant
import FeedGraph.Plan.OfDocument
import FeedGraph.Proofs.Document.Variables
import FeedGraph.Proofs.Plan.Results

/-!
# Conversions: two ways from JSON to values

A value of JSON becomes a value directly (`Value.ofJson`), or it is read as a constant first, which
is made a value when it is asked for (`Constant.toValue`). The reader of constants is a parameter of
which is known that it goes through JSON as it stands (`FollowsJson`). Both ways lead to the same
value, which is the one that mirrors the JSON (`Value.Mirrors`): numbers are signed where they can
be, else unsigned or doubles, items and members keep their order, and texts stay texts.

Only bytes cannot be made a value, and there are none in JSON. So variables are never refused for
the JSON that they are sent as, and wherever their constants are put in place of them a value can be
made. The main statement is `FollowsJson.toValue_read`.
-/

namespace FeedGraph

/-! ## Readers of constants -/

/-- A reader of constants goes through a value of JSON as it stands: from one item to the next, and
from one member to the next. The fields are all that is known of it. What has no parts is taken as
it is, and a list or an object is refused only if something in it is. -/
structure FollowsJson (read : Json → Except String Constant) : Prop where
  null : read .null = .ok .null
  boolean (b : Bool) : read (.boolean b) = .ok (.boolean b)
  number (n : Json.Number) : read (.number n) = .ok (.number n)
  string (s : String) : read (.string s) = .ok (.string s)
  array (items : List Json) : read (.array items) = .list <$> items.mapM read
  object (members : List (String × Json)) : read (.object members) =
    .object <$> members.mapM fun member => (member.1, ·) <$> read member.2

namespace Value

mutual

/-- A value mirrors a value of JSON: it is the same as far as JSON tells, and its numbers are held
in the first way that is wide enough. -/
inductive Mirrors : Json → Value → Prop where
  | null : Mirrors .null .null
  | boolean (b : Bool) : Mirrors (.boolean b) (.boolean b)
  | signed {i : Int} {inRange : Json.IntegerRange i} {n : Int64} : n.toInt = i →
      Mirrors (.number (.integer i inRange)) (.number (.int64 n))
  | unsigned {i : Int} {inRange : Json.IntegerRange i} {n : UInt64} : (n.toNat : Int) = i →
      0x8000000000000000 ≤ i → Mirrors (.number (.integer i inRange)) (.number (.uint64 n))
  | double (x : Binary64) : Mirrors (.number (.double x)) (.number (.double x))
  | string (s : String) : Mirrors (.string s) (.string s)
  | list {items : List Json} {values : List Value} : MirrorItems items values →
      Mirrors (.array items) (.list values)
  | object {members : List (String × Json)} {values : List (String × Value)} :
      MirrorMembers members values → Mirrors (.object members) (.object values)

inductive MirrorItems : List Json → List Value → Prop where
  | nil : MirrorItems [] []
  | cons {item : Json} {rest : List Json} {value : Value} {values : List Value} :
      Mirrors item value → MirrorItems rest values → MirrorItems (item :: rest) (value :: values)

inductive MirrorMembers : List (String × Json) → List (String × Value) → Prop where
  | nil : MirrorMembers [] []
  | cons {name : String} {member : Json} {rest : List (String × Json)} {value : Value}
      {values : List (String × Value)} : Mirrors member value → MirrorMembers rest values →
        MirrorMembers ((name, member) :: rest) ((name, value) :: values)

end

/-- A number is held as a signed integer if there is one, else as an unsigned one. -/
theorem mirrors_number (n : Json.Number) : Mirrors (.number n) (.number (.ofJson n)) := by
  cases n with
  | double x => exact .double x
  | integer i inRange =>
    rw [Number.ofJson]
    split
    · next hsmall => exact .signed (Int64.toInt_ofInt_of_le inRange.1 hsmall)
    · next hlarge =>
      refine .unsigned ?_ (Int.not_lt.mp hlarge)
      have hhigh := inRange.2
      rw [UInt64.toNat_ofNat']
      omega

mutual

theorem mirrors_ofJson (json : Json) : Mirrors json (ofJson json) := by
  match json with
  | .null => exact .null
  | .boolean b => exact .boolean b
  | .number n => exact mirrors_number n
  | .string s => exact .string s
  | .array items => exact .list (mirrorItems_ofItems items)
  | .object members => exact .object (mirrorMembers_ofMembers members)

theorem mirrorItems_ofItems (items : List Json) : MirrorItems items (ofItems items) := by
  match items with
  | [] => exact .nil
  | item :: rest => exact .cons (mirrors_ofJson item) (mirrorItems_ofItems rest)

theorem mirrorMembers_ofMembers (members : List (String × Json)) :
    MirrorMembers members (ofMembers members) := by
  match members with
  | [] => exact .nil
  | (name, member) :: rest => exact .cons (mirrors_ofJson member) (mirrorMembers_ofMembers rest)

end

mutual

/-- JSON is mirrored by one value only: the cases exclude each other, those for numbers by the
ranges. -/
theorem Mirrors.eq_ofJson {json : Json} {value : Value} (h : Mirrors json value) :
    value = ofJson json := by
  cases h with
  | null | boolean | double | string => rfl
  | @signed i inRange n hn =>
    have hsmall : i < 0x8000000000000000 := hn ▸ n.toInt_lt
    rw [ofJson, Number.ofJson, if_pos hsmall, ← hn, Int64.ofInt_toInt]
  | @unsigned i inRange n hn hlarge =>
    rw [ofJson, Number.ofJson, if_neg (Int.not_lt.mpr hlarge), ← hn, Int.toNat_natCast,
      UInt64.ofNat_toNat]
  | list hitems => rw [ofJson, hitems.eq_ofItems]
  | object hmembers => rw [ofJson, hmembers.eq_ofMembers]

theorem MirrorItems.eq_ofItems {items : List Json} {values : List Value}
    (h : MirrorItems items values) : values = ofItems items := by
  cases h with
  | nil => rfl
  | cons hitem hrest => rw [ofItems, hitem.eq_ofJson, hrest.eq_ofItems]

theorem MirrorMembers.eq_ofMembers {members : List (String × Json)} {values : List (String × Value)}
    (h : MirrorMembers members values) : values = ofMembers members := by
  cases h with
  | nil => rfl
  | cons hmember hrest => rw [ofMembers, hmember.eq_ofJson, hrest.eq_ofMembers]

end

end Value

/-! ## Values of literals -/

namespace Literal

mutual

theorem toValue_ofJson (json : Json) : (ofJson json).toValue = .ok (.ofJson json) := by
  match json with
  | .array items =>
    rw [ofJson, toValue, toValues_ofItems items]
    rfl
  | .object members =>
    rw [ofJson, toValue, toValueMembers_ofMembers members]
    rfl
  | .null | .boolean _ | .number _ | .string _ => rfl

theorem toValues_ofItems (items : List Json) : toValues (ofItems items) = .ok (Value.ofItems items) := by
  match items with
  | [] => rfl
  | item :: rest =>
    rw [ofItems, toValues, toValue_ofJson item, toValues_ofItems rest]
    rfl

theorem toValueMembers_ofMembers (members : List (String × Json)) :
    toValueMembers (ofMembers members) = .ok (Value.ofMembers members) := by
  match members with
  | [] => rfl
  | (name, member) :: rest =>
    rw [ofMembers, toValueMembers, toValue_ofJson member, toValueMembers_ofMembers rest]
    rfl

end

mutual

/-- A value that a literal is read as without a look at types stands for itself. -/
theorem toValue_toLiteral (literal : Literal) {value : Value} (h : literal.toValue = .ok value) :
    value.toLiteral.toValue = .ok value := by
  match literal with
  | .variable name => cases h
  | .list items =>
    rw [toValue] at h
    obtain ⟨values, hvalues, rfl⟩ := ok_of_map h
    rw [Value.toLiteral, toValue, toValues_toLiterals items hvalues]
    rfl
  | .object members =>
    rw [toValue] at h
    obtain ⟨values, hvalues, rfl⟩ := ok_of_map h
    rw [Value.toLiteral, toValue, toValueMembers_toLiteralMembers members hvalues]
    rfl
  | .number n =>
    obtain rfl := Except.ok.inj h
    rw [Value.toLiteral, Value.Number.toJson_ofJson]
    exact h
  | .null | .string _ | .boolean _ | .enumeration _ =>
    obtain rfl := Except.ok.inj h
    exact h

theorem toValues_toLiterals (items : List Literal) {values : List Value}
    (h : toValues items = .ok values) : toValues (Value.toLiterals values) = .ok values := by
  match items with
  | [] =>
    obtain rfl := Except.ok.inj h
    rfl
  | item :: rest =>
    rw [toValues] at h
    split at h
    · cases h
    · next value hvalue =>
      obtain ⟨others, hothers, rfl⟩ := ok_of_map h
      rw [Value.toLiterals, toValues, toValue_toLiteral item hvalue, toValues_toLiterals rest hothers]
      rfl

theorem toValueMembers_toLiteralMembers (members : List (String × Literal))
    {values : List (String × Value)} (h : toValueMembers members = .ok values) :
    toValueMembers (Value.toLiteralMembers values) = .ok values := by
  match members with
  | [] =>
    obtain rfl := Except.ok.inj h
    rfl
  | (name, literal) :: rest =>
    rw [toValueMembers] at h
    split at h
    · cases h
    · next value hvalue =>
      obtain ⟨others, hothers, rfl⟩ := ok_of_map h
      rw [Value.toLiteralMembers, toValueMembers, toValue_toLiteral literal hvalue,
        toValueMembers_toLiteralMembers rest hothers]
      rfl

end

end Literal

/-! ## Constants -/

namespace FollowsJson

variable {read : Json → Except String Constant}

mutual

/-- JSON is read as a constant, of which the value is made that is also made directly. The induction
is on the JSON, along the fields of `FollowsJson`. -/
theorem exists_constant (hread : FollowsJson read) (json : Json) :
    ∃ constant, read json = .ok constant ∧ constant.toValue = .ok (.ofJson json) := by
  match json with
  | .null => exact ⟨_, hread.null, rfl⟩
  | .boolean b => exact ⟨_, hread.boolean b, rfl⟩
  | .number n => exact ⟨_, hread.number n, rfl⟩
  | .string s => exact ⟨_, hread.string s, rfl⟩
  | .array items =>
    obtain ⟨constants, hconstants, hvalues⟩ := exists_constants hread items
    refine ⟨.list constants, by rw [hread.array, hconstants]; rfl, ?_⟩
    rw [Constant.toValue, hvalues]
    rfl
  | .object members =>
    obtain ⟨constants, hconstants, hvalues⟩ := exists_constantMembers hread members
    refine ⟨.object constants, by rw [hread.object, hconstants]; rfl, ?_⟩
    rw [Constant.toValue, hvalues]
    rfl

theorem exists_constants (hread : FollowsJson read) (items : List Json) :
    ∃ constants, items.mapM read = .ok constants ∧
      Constant.toValues constants = .ok (Value.ofItems items) := by
  match items with
  | [] => exact ⟨[], rfl, rfl⟩
  | item :: rest =>
    obtain ⟨constant, hconstant, hvalue⟩ := exists_constant hread item
    obtain ⟨constants, hconstants, hvalues⟩ := exists_constants hread rest
    refine ⟨constant :: constants, by rw [List.mapM_cons, hconstant, hconstants]; rfl, ?_⟩
    rw [Constant.toValues, hvalue, hvalues]
    rfl

theorem exists_constantMembers (hread : FollowsJson read) (members : List (String × Json)) :
    ∃ constants, (members.mapM fun member => (member.1, ·) <$> read member.2) = .ok constants ∧
      Constant.toValueMembers constants = .ok (Value.ofMembers members) := by
  match members with
  | [] => exact ⟨[], rfl, rfl⟩
  | (name, member) :: rest =>
    obtain ⟨constant, hconstant, hvalue⟩ := exists_constant hread member
    obtain ⟨constants, hconstants, hvalues⟩ := exists_constantMembers hread rest
    refine ⟨(name, constant) :: constants, by rw [List.mapM_cons, hconstant, hconstants]; rfl, ?_⟩
    rw [Constant.toValueMembers, hvalue, hvalues]
    rfl

end

end FollowsJson

/-- A constant and a value come to the same wherever they are put in place of a variable. -/
def Constant.StandsFor (constant : Constant) (value : Value) : Prop :=
  ∃ found, constant.toValue = .ok found ∧ value.toLiteral.toValue = .ok found

namespace Value

mutual

/-- A default and the constant it is held as come to the same. -/
theorem standsFor_toConstant (value : Value) : value.toConstant.StandsFor value := by
  match value with
  | .list items =>
    obtain ⟨values, hconstants, hliterals⟩ := exists_values items
    refine ⟨.list values, ?_, ?_⟩
    · rw [toConstant, Constant.toValue, hconstants]
      rfl
    · rw [toLiteral, Literal.toValue, hliterals]
      rfl
  | .object members =>
    obtain ⟨values, hconstants, hliterals⟩ := exists_valueMembers members
    refine ⟨.object values, ?_, ?_⟩
    · rw [toConstant, Constant.toValue, hconstants]
      rfl
    · rw [toLiteral, Literal.toValue, hliterals]
      rfl
  | .null | .boolean _ | .number _ | .string _ | .enumeration _ => exact ⟨_, rfl, rfl⟩

theorem exists_values (items : List Value) : ∃ values,
    Constant.toValues (toConstants items) = .ok values ∧
      Literal.toValues (toLiterals items) = .ok values := by
  match items with
  | [] => exact ⟨[], rfl, rfl⟩
  | item :: rest =>
    obtain ⟨value, hconstant, hliteral⟩ := standsFor_toConstant item
    obtain ⟨values, hconstants, hliterals⟩ := exists_values rest
    refine ⟨value :: values, ?_, ?_⟩
    · rw [toConstants, Constant.toValues, hconstant, hconstants]
      rfl
    · rw [toLiterals, Literal.toValues, hliteral, hliterals]
      rfl

theorem exists_valueMembers (members : List (String × Value)) : ∃ values,
    Constant.toValueMembers (toConstantMembers members) = .ok values ∧
      Literal.toValueMembers (toLiteralMembers members) = .ok values := by
  match members with
  | [] => exact ⟨[], rfl, rfl⟩
  | (name, member) :: rest =>
    obtain ⟨value, hconstant, hliteral⟩ := standsFor_toConstant member
    obtain ⟨values, hconstants, hliterals⟩ := exists_valueMembers rest
    refine ⟨(name, value) :: values, ?_, ?_⟩
    · rw [toConstantMembers, Constant.toValueMembers, hconstant, hconstants]
      rfl
    · rw [toLiteralMembers, Literal.toValueMembers, hliteral, hliterals]
      rfl

end

end Value

/-! ## Variables -/

/-- Why a declared variable has no constant. -/
inductive VariableFault where
  /-- it is sent as JSON that is read as none -/
  | malformed (name reason : String) (place : Position)
  /-- it is not sent, and cannot be left out -/
  | rejected (rejection : Rejection)

namespace Operation

/-- The constants of declared variables: what is sent is read, else there is the default. It is
`Operation.bindingsFrom` for constants, with one reason more to be refused. -/
def readConstantsFrom (read : Json → Except String Constant) (supplied : Members Json) :
    List VariableDefinition → Members Constant → Except VariableFault (Members Constant)
  | [], constants => .ok constants
  | definition :: rest, constants =>
    match Members.get? supplied definition.name with
    | some json =>
      match read json with
      | .ok constant =>
        readConstantsFrom read supplied rest (Members.set constants definition.name constant)
      | .error reason => .error (.malformed definition.name reason definition.position)
    | none =>
      match definition.default? with
      | some value =>
        readConstantsFrom read supplied rest (Members.set constants definition.name value.toConstant)
      | none =>
        if definition.type.nullable then readConstantsFrom read supplied rest constants
        else .error (.rejected (.variableNotFound definition.name definition.position))

def readConstants (read : Json → Except String Constant) (operation : Operation)
    (supplied : Members Json) : Except VariableFault (Members Constant) :=
  readConstantsFrom read supplied operation.declared []

end Operation

/-- Why a literal has no value. -/
inductive ConversionFault where
  /-- a variable in it has none -/
  | unbound (name : String)
  /-- a constant in it has none -/
  | unsupported (reason : String)

/-- The value of a literal, with constants for its variables: first all of it is made a constant,
and then this is made a value. -/
def Literal.convert (constants : Members Constant) (literal : Literal) :
    Except ConversionFault Value :=
  match literal.toConstant constants with
  | .error name => .error (.unbound name)
  | .ok constant => constant.toValue.mapError .unsupported

/-- Under each name there is a constant that stands for the value there, or there is nothing. -/
def StandForAll (constants : Members Constant) (bindings : Members Value) : Prop :=
  ∀ name, Option.Rel Constant.StandsFor (Members.get? constants name) (Members.get? bindings name)

namespace StandForAll

variable {constants : Members Constant} {bindings : Members Value}

theorem set (h : StandForAll constants bindings) (name : String) {constant : Constant}
    {value : Value} (hstands : constant.StandsFor value) :
    StandForAll (Members.set constants name constant) (Members.set bindings name value) := by
  intro other
  by_cases heq : name = other
  · subst heq
    rw [Members.get?_set_self, Members.get?_set_self]
    exact .some hstands
  · rw [Members.get?_set_of_ne _ _ heq, Members.get?_set_of_ne _ _ heq]
    exact h other

/-- What is read from JSON is never refused, so that the constants of variables stand for their
values. The induction is on the variables; a variable has a constant exactly if it has a value. -/
theorem readConstantsFrom {read : Json → Except String Constant} (hread : FollowsJson read)
    (supplied : Members Json) (declared : List VariableDefinition)
    (h : StandForAll constants bindings) :
    Parallel StandForAll (Operation.readConstantsFrom read supplied declared constants)
      ((Operation.bindingsFrom supplied declared bindings).mapError .rejected) := by
  induction declared generalizing constants bindings with
  | nil => exact .ok h
  | cons definition rest ih =>
    rw [Operation.readConstantsFrom, Operation.bindingsFrom]
    cases Members.get? supplied definition.name with
    | some json =>
      obtain ⟨constant, hconstant, hvalue⟩ := hread.exists_constant json
      have hliteral := Literal.toValue_toLiteral _ (Literal.toValue_ofJson json)
      simp only [hconstant]
      exact ih (h.set _ ⟨_, hvalue, hliteral⟩)
    | none =>
      cases definition.default? with
      | some value => exact ih (h.set _ value.standsFor_toConstant)
      | none =>
        cases definition.type.nullable with
        | true => exact ih h
        | false => exact .error _

mutual

/-- A literal has a constant for which there is a value, or in both ways the same variable is
missing. -/
theorem toConstant (h : StandForAll constants bindings) (literal : Literal) :
    Parallel (fun constant value => constant.toValue = .ok value) (literal.toConstant constants)
      (literal.bind bindings).toValue := by
  match literal with
  | .variable name =>
    have hname := h name
    rw [Literal.toConstant, Literal.bind]
    cases hconstant : Members.get? constants name with
    | none =>
      rw [hconstant] at hname
      cases hvalue : Members.get? bindings name with
      | none => exact .error name
      | some value => rw [hvalue] at hname; cases hname
    | some constant =>
      rw [hconstant] at hname
      cases hvalue : Members.get? bindings name with
      | none => rw [hvalue] at hname; cases hname
      | some value =>
        rw [hvalue] at hname
        obtain ⟨hstands⟩ := hname
        obtain ⟨found, hfound, hliteral⟩ := hstands
        simp only [hliteral]
        exact .ok hfound
  | .list items =>
    rw [Literal.toConstant, Literal.bind, Literal.toValue]
    exact (toConstants h items).map fun constants values hvalues => by
      rw [Constant.toValue, hvalues]
      rfl
  | .object members =>
    rw [Literal.toConstant, Literal.bind, Literal.toValue]
    exact (toConstantMembers h members).map fun constants values hvalues => by
      rw [Constant.toValue, hvalues]
      rfl
  | .null | .boolean _ | .number _ | .string _ | .enumeration _ => exact .ok rfl

theorem toConstants (h : StandForAll constants bindings) (items : List Literal) :
    Parallel (fun constants values => Constant.toValues constants = .ok values)
      (Literal.toConstants constants items)
      (Literal.toValues (Literal.bindItems bindings items)) := by
  match items with
  | [] => exact .ok rfl
  | item :: rest =>
    rw [Literal.toConstants, Literal.bindItems, Literal.toValues]
    rcases (toConstant h item).cases with ⟨name, hconstant, hbound⟩ |
      ⟨constant, value, hconstant, hbound, hvalue⟩
    · rw [hconstant, hbound]
      exact .error name
    · rw [hconstant, hbound]
      exact (toConstants h rest).map fun constants values hvalues => by
        rw [Constant.toValues, hvalue, hvalues]
        rfl

theorem toConstantMembers (h : StandForAll constants bindings) (members : List (String × Literal)) :
    Parallel (fun constants values => Constant.toValueMembers constants = .ok values)
      (Literal.toConstantMembers constants members)
      (Literal.toValueMembers (Literal.bindMembers bindings members)) := by
  match members with
  | [] => exact .ok rfl
  | (name, member) :: rest =>
    rw [Literal.toConstantMembers, Literal.bindMembers, Literal.toValueMembers]
    rcases (toConstant h member).cases with ⟨name, hconstant, hbound⟩ |
      ⟨constant, value, hconstant, hbound, hvalue⟩
    · rw [hconstant, hbound]
      exact .error name
    · rw [hconstant, hbound]
      exact (toConstantMembers h rest).map fun constants values hvalues => by
        rw [Constant.toValueMembers, hvalue, hvalues]
        rfl

end

/-- So whatever is missing, it is never that a constant has no value. -/
theorem convert_eq (h : StandForAll constants bindings) (literal : Literal) :
    literal.convert constants = (literal.bind bindings).toValue.mapError .unbound := by
  rw [Literal.convert]
  rcases (h.toConstant literal).cases with ⟨name, hconstant, hbound⟩ |
    ⟨constant, value, hconstant, hbound, hvalue⟩
  · rw [hconstant, hbound]
    rfl
  · rw [hconstant, hbound]
    simp only [hvalue]
    rfl

end StandForAll

/-- JSON that is read as a constant, and then made a value, is the value that is made of it
directly, which mirrors it and is the only one to do so. Variables are never refused for the JSON
they are sent as: they have constants wherever they have values, and with these every literal is
made the same value, or is refused since one of its variables is missing, but not since a constant
has no value. -/
theorem FollowsJson.toValue_read {read : Json → Except String Constant} (hread : FollowsJson read) :
    (∀ json, ∃ constant, read json = .ok constant ∧ constant.toValue = .ok (.ofJson json) ∧
      ∀ value, Value.Mirrors json value ↔ value = .ofJson json) ∧
    ∀ (operation : Operation) (supplied : Members Json),
      Parallel (fun constants bindings => ∀ literal : Literal,
          literal.convert constants = (literal.bind bindings).toValue.mapError .unbound)
        (operation.readConstants read supplied) ((operation.bindings supplied).mapError .rejected) := by
  refine ⟨fun json => ?_, fun operation supplied => ?_⟩
  · obtain ⟨constant, hconstant, hvalue⟩ := hread.exists_constant json
    refine ⟨constant, hconstant, hvalue, fun value => ⟨fun h => h.eq_ofJson, ?_⟩⟩
    rintro rfl
    exact Value.mirrors_ofJson json
  · have hempty : StandForAll [] [] := fun _ => .none
    rcases (hempty.readConstantsFrom hread supplied operation.declared).cases with
      ⟨fault, hconstants, hbindings⟩ | ⟨constants, bindings, hconstants, hbindings, hstand⟩
    · rw [Operation.readConstants, Operation.bindings, hconstants, hbindings]
      exact .error fault
    · rw [Operation.readConstants, Operation.bindings, hconstants, hbindings]
      exact .ok hstand.convert_eq

/-! ## Boundaries -/

/-- A reader that never refuses anything. -/
def Constant.read (json : Json) : Except String Constant := .ok (ofJson json)

theorem Constant.followsJson_read : FollowsJson read where
  null := rfl
  boolean _ := rfl
  number _ := rfl
  string _ := rfl
  array items := by
    have hitems : items.mapM read = .ok (ofItems items) := by
      induction items with
      | nil => rfl
      | cons item rest ih =>
        rw [List.mapM_cons, ih]
        rfl
    rw [hitems]
    rfl
  object members := by
    have hmembers : (members.mapM fun member => (member.1, ·) <$> read member.2) =
        .ok (ofMembers members) := by
      induction members with
      | nil => rfl
      | cons member rest ih =>
        rw [List.mapM_cons, ih]
        rfl
    rw [hmembers]
    rfl

namespace Boundaries

/-- Numbers at the ends of what they can be held as, and a text. -/
def sent : Json :=
  .object
    [("lowest", .number (.integer (-0x8000000000000000) (by decide))),
      ("signed", .number (.integer 0x7fffffffffffffff (by decide))),
      ("unsigned", .number (.integer 0x8000000000000000 (by decide))),
      ("highest", .number (.integer 0xffffffffffffffff (by decide))),
      ("zero", .number (.double (.zero true))),
      ("orders", .array [.string "NEWEST", .null])]

def value : Value :=
  .object
    [("lowest", .number (.int64 (-0x8000000000000000))),
      ("signed", .number (.int64 0x7fffffffffffffff)),
      ("unsigned", .number (.uint64 0x8000000000000000)),
      ("highest", .number (.uint64 0xffffffffffffffff)),
      ("zero", .number (.double (.zero true))),
      ("orders", .list [.string "NEWEST", .null])]

/-- An operation with two variables, one of which has a default. -/
def operation : Operation :=
  ⟨.query, [⟨"range", ⟨1, 8⟩, .named "Range" false, none⟩,
    ⟨"size", ⟨1, 24⟩, .named "Int" true, some (.number (.int64 20))⟩], [], ⟨1, 1⟩⟩

def bindings : Members Value := [("range", value), ("size", .number (.int64 20))]

theorem ofJson_sent : Value.ofJson sent = value := by rfl

theorem bindings_operation : operation.bindings [("range", sent)] = .ok bindings := by rfl

def both : Literal := .list [.variable "range", .variable "size"]

theorem toValue_both :
    (both.bind bindings).toValue = .ok (.list [value, .number (.int64 20)]) := by
  have hsent := Literal.toValue_toLiteral _ (Literal.toValue_ofJson sent)
  rw [ofJson_sent] at hsent
  change (Literal.list [value.toLiteral, (Value.number (.int64 20)).toLiteral]).toValue = _
  rw [Literal.toValue, Literal.toValues, hsent]
  rfl

/-- What is sent is read and made a value, and so it is where the variables are used. -/
theorem toValue_sent :
    FollowsJson Constant.read ∧
    (∃ constant, Constant.read sent = .ok constant ∧ constant.toValue = .ok value) ∧
    ∃ constants, operation.readConstants Constant.read [("range", sent)] = .ok constants ∧
      both.convert constants = .ok (.list [value, .number (.int64 20)]) := by
  have hread := FollowsJson.toValue_read Constant.followsJson_read
  refine ⟨Constant.followsJson_read, ?_, ?_⟩
  · obtain ⟨constant, hconstant, hvalue, -⟩ := hread.1 sent
    rw [ofJson_sent] at hvalue
    exact ⟨constant, hconstant, hvalue⟩
  · have hparallel := hread.2 operation [("range", sent)]
    rw [bindings_operation] at hparallel
    rcases hparallel.cases with ⟨fault, -, hfault⟩ | ⟨constants, _, hconstants, hbindings, hconvert⟩
    · cases hfault
    · obtain rfl := Except.ok.inj hbindings
      refine ⟨constants, hconstants, ?_⟩
      rw [hconvert both, toValue_both]
      rfl

end Boundaries

end FeedGraph
