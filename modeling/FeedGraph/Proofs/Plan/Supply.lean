import FeedGraph.Proofs.Plan.Bindings
import FeedGraph.Proofs.Plan.Constants

/-!
# Supply: literals that are sent as variables

Requests carry the values of variables as JSON. JSON has no members of enumerations, so that these
are sent as texts (`Literal.toJson`), and a text stays a text. A variable that is supplied like that
stands for the literal with texts in place of members of enumerations (`Literal.quoted`), wherever
it is used (`Plan.ofDocument_supplied`). For all other literals that is the literal itself. But
where a member of an enumeration is wanted nothing that is supplied will do, except null
(`Coercion.null_of_enumeration`).
-/

namespace FeedGraph

namespace Literal

/-! ## What is sent -/

mutual

/-- A literal without variables as JSON; a member of an enumeration is a text. For a variable, which
has no such form, there is null. -/
def toJson : Literal → Json
  | .variable _ => .null
  | .null => .null
  | .number n => .number n
  | .string s => .string s
  | .boolean b => .boolean b
  | .enumeration name => .string name
  | .list items => .array (toJsonItems items)
  | .object members => .object (toJsonMembers members)

def toJsonItems : List Literal → List Json
  | [] => []
  | item :: rest => toJson item :: toJsonItems rest

def toJsonMembers : List (String × Literal) → List (String × Json)
  | [] => []
  | (name, literal) :: rest => (name, toJson literal) :: toJsonMembers rest

end

mutual

/-- A literal with texts in place of members of enumerations. -/
def quoted : Literal → Literal
  | .enumeration name => .string name
  | .list items => .list (quotedItems items)
  | .object members => .object (quotedMembers members)
  | literal => literal

def quotedItems : List Literal → List Literal
  | [] => []
  | item :: rest => quoted item :: quotedItems rest

def quotedMembers : List (String × Literal) → List (String × Literal)
  | [] => []
  | (name, literal) :: rest => (name, quoted literal) :: quotedMembers rest

end

mutual

/-- A literal with another one in place of a variable. -/
def replace (name : String) (other : Literal) : Literal → Literal
  | .variable used => if used = name then other else .variable used
  | .list items => .list (replaceItems name other items)
  | .object members => .object (replaceMembers name other members)
  | literal => literal

def replaceItems (name : String) (other : Literal) : List Literal → List Literal
  | [] => []
  | item :: rest => replace name other item :: replaceItems name other rest

def replaceMembers (name : String) (other : Literal) :
    List (String × Literal) → List (String × Literal)
  | [] => []
  | (key, literal) :: rest => (key, replace name other literal) :: replaceMembers name other rest

end

mutual

/-- The members of enumerations in a literal, in order. -/
def enumerationNames : Literal → List String
  | .enumeration name => [name]
  | .list items => itemEnumerationNames items
  | .object members => memberEnumerationNames members
  | _ => []

def itemEnumerationNames : List Literal → List String
  | [] => []
  | item :: rest => item.enumerationNames ++ itemEnumerationNames rest

def memberEnumerationNames : List (String × Literal) → List String
  | [] => []
  | (_, literal) :: rest => literal.enumerationNames ++ memberEnumerationNames rest

end

mutual

theorem quoted_eq (literal : Literal) (h : literal.enumerationNames = []) :
    literal.quoted = literal := by
  match literal with
  | .enumeration name => cases h
  | .list items =>
    rw [enumerationNames] at h
    rw [quoted, quotedItems_eq items h]
  | .object members =>
    rw [enumerationNames] at h
    rw [quoted, quotedMembers_eq members h]
  | .variable _ | .null | .number _ | .string _ | .boolean _ => rfl

theorem quotedItems_eq (items : List Literal) (h : itemEnumerationNames items = []) :
    quotedItems items = items := by
  match items with
  | [] => rfl
  | item :: rest =>
    rw [itemEnumerationNames, List.append_eq_nil_iff] at h
    rw [quotedItems, quoted_eq item h.1, quotedItems_eq rest h.2]

theorem quotedMembers_eq (members : List (String × Literal))
    (h : memberEnumerationNames members = []) : quotedMembers members = members := by
  match members with
  | [] => rfl
  | (name, literal) :: rest =>
    rw [memberEnumerationNames, List.append_eq_nil_iff] at h
    rw [quotedMembers, quoted_eq literal h.1, quotedMembers_eq rest h.2]

end

mutual

/-- What a literal is sent as stands for the literal with texts in place of members of enumerations:
`Value.ofJson` has no way to know that a text was one. -/
theorem toLiteral_ofJson (literal : Literal) (h : literal.variableNames = []) :
    (Value.ofJson literal.toJson).toLiteral = literal.quoted := by
  match literal with
  | .variable name => cases h
  | .list items =>
    rw [variableNames] at h
    rw [toJson, Value.ofJson, Value.toLiteral, quoted, toLiterals_ofItems items h]
  | .object members =>
    rw [variableNames] at h
    rw [toJson, Value.ofJson, Value.toLiteral, quoted, toLiteralMembers_ofMembers members h]
  | .number n => simp only [toJson, Value.ofJson, Value.toLiteral, Value.Number.toJson_ofJson, quoted]
  | .null | .string _ | .boolean _ | .enumeration _ => rfl

theorem toLiterals_ofItems (items : List Literal) (h : itemVariableNames items = []) :
    Value.toLiterals (Value.ofItems (toJsonItems items)) = quotedItems items := by
  match items with
  | [] => rfl
  | item :: rest =>
    rw [itemVariableNames, List.append_eq_nil_iff] at h
    rw [toJsonItems, Value.ofItems, Value.toLiterals, quotedItems, toLiteral_ofJson item h.1,
      toLiterals_ofItems rest h.2]

theorem toLiteralMembers_ofMembers (members : List (String × Literal))
    (h : memberVariableNames members = []) :
    Value.toLiteralMembers (Value.ofMembers (toJsonMembers members)) = quotedMembers members := by
  match members with
  | [] => rfl
  | (name, literal) :: rest =>
    rw [memberVariableNames, List.append_eq_nil_iff] at h
    rw [toJsonMembers, Value.ofMembers, Value.toLiteralMembers, quotedMembers,
      toLiteral_ofJson literal h.1, toLiteralMembers_ofMembers rest h.2]

end

/-! ## Other literals in place of variables -/

variable {bindings : Members Value}

theorem bind_of_closed {literal : Literal} (h : literal.variableNames = []) :
    literal.bind bindings = literal := by
  induction literal using structural with
  | unbound name => cases h
  | list items ih =>
    rw [bind, bindItems_eq_map]
    refine congrArg list ((List.map_congr_left fun item hitem => ?_).trans (List.map_id items))
    exact ih item hitem (variableNames_item h item hitem)
  | object members ih =>
    rw [bind, bindMembers_eq_map]
    refine congrArg object ((List.map_congr_left fun member hmem => ?_).trans (List.map_id members))
    rw [ih member hmem (variableNames_member h member hmem), id]
  | _ => rfl

mutual

/-- What a variable is bound to can be put in its place: replacing all variables afterwards finds
nothing to replace in it. -/
theorem bind_replace {name : String} {value : Value}
    (hvalue : Members.get? bindings name = some value) (literal : Literal) :
    (replace name value.toLiteral literal).bind bindings = literal.bind bindings := by
  match literal with
  | .variable used =>
    rw [replace]
    split
    · next hused =>
      rw [bind_of_closed value.variableNames_toLiteral, hused, bind, hvalue]
    · rfl
  | .list items => rw [replace, bind, bind, bindItems_replaceItems hvalue items]
  | .object members => rw [replace, bind, bind, bindMembers_replaceMembers hvalue members]
  | .null | .number _ | .string _ | .boolean _ | .enumeration _ => rfl

theorem bindItems_replaceItems {name : String} {value : Value}
    (hvalue : Members.get? bindings name = some value) (items : List Literal) :
    bindItems bindings (replaceItems name value.toLiteral items) = bindItems bindings items := by
  match items with
  | [] => rfl
  | item :: rest =>
    rw [replaceItems, bindItems, bindItems, bind_replace hvalue item,
      bindItems_replaceItems hvalue rest]

theorem bindMembers_replaceMembers {name : String} {value : Value}
    (hvalue : Members.get? bindings name = some value) (members : List (String × Literal)) :
    bindMembers bindings (replaceMembers name value.toLiteral members) =
      bindMembers bindings members := by
  match members with
  | [] => rfl
  | (key, literal) :: rest =>
    rw [replaceMembers, bindMembers, bindMembers, bind_replace hvalue literal,
      bindMembers_replaceMembers hvalue rest]

end

end Literal

/-- Where a member of an enumeration is wanted, all that can be sent is null, since `Value.ofJson`
never makes a member. -/
theorem Coercion.null_of_enumeration {schema : Schema} {reader : DefaultReader} {place : Position}
    {type : String} {definition : TypeDef} {values : List String}
    (htype : schema.type? type = some definition) (hkind : definition.kind = .enumeration values)
    {json : Json} {nullable : Bool} {argument : String} {position : Position} {value : Value}
    (h : coerce schema reader place (Value.ofJson json).toLiteral (.named type nullable) argument
      position = .ok value) : value = .null := by
  cases json with
  | null =>
    simp only [Value.ofJson, Value.toLiteral, coerce] at h
    split at h
    · exact (Except.ok.inj h).symm
    · cases h
  | _ =>
    simp only [Value.ofJson, Value.toLiteral, coerce, wrapped, coerceNamed, htype, hkind] at h
    cases h

/-! ## Documents -/

/-- A document with a literal in place of a variable. -/
def Document.replace (name : String) (other : Literal) (document : Document) : Document :=
  ⟨document.operations.map (·.rewrite (Literal.replace name other)),
    document.fragments.map (·.rewrite (Literal.replace name other))⟩

/-- A variable stands for what it is sent as. The document is planned like the one that has the
literal in place of the variable, with texts in place of members of enumerations; so for a literal
without members of enumerations it is all the same whether it is written or sent. But at an
enumeration nothing that is sent stands for one of the members. -/
theorem Plan.ofDocument_supplied {document : Document} {operationName? : Option String}
    {supplied : Members Json} {name : String} {literal : Literal}
    (hdeclared : ∀ name? operation, document.choose operationName? = .ok (name?, operation) →
      name ∈ operation.declared.map (·.name))
    (hclosed : literal.variableNames = [])
    (hsupplied : Members.get? supplied name = some literal.toJson) (schema : Schema)
    (depthLimit : Nat) :
    ofDocument schema (document.replace name literal.quoted) operationName? supplied depthLimit =
      ofDocument schema document operationName? supplied depthLimit ∧
    (literal.enumerationNames = [] →
      ofDocument schema (document.replace name literal) operationName? supplied depthLimit =
        ofDocument schema document operationName? supplied depthLimit) ∧
    ∀ type definition values, schema.type? type = some definition →
      definition.kind = .enumeration values →
      ∀ json reader place nullable argument position value,
        Coercion.coerce schema reader place (Value.ofJson json).toLiteral (.named type nullable)
          argument position = .ok value → value = .null := by
  have hquoted : ofDocument schema (document.replace name literal.quoted) operationName? supplied
      depthLimit = ofDocument schema document operationName? supplied depthLimit := by
    refine @ofDocument_rewrite document operationName? (Literal.replace name literal.quoted)
      (·.rewrite (Literal.replace name literal.quoted)) supplied supplied (fun _ => rfl)
      (fun _ => rfl) (fun _ => rfl) (fun name? operation h => ?_) schema depthLimit
    have hsame : (operation.rewrite (Literal.replace name literal.quoted)).bindings supplied =
        operation.bindings supplied := rfl
    rw [hsame]
    cases hbindings : operation.bindings supplied with
    | error rejection => exact .error rejection
    | ok bindings =>
      have hvalue : Members.get? bindings name = some (.ofJson literal.toJson) :=
        Operation.get?_bindings hbindings (hdeclared name? operation h) hsupplied
      rw [← Literal.toLiteral_ofJson literal hclosed]
      exact .ok (Literal.bind_replace hvalue)
  refine ⟨hquoted, fun hnone => ?_, fun type definition values htype hkind => ?_⟩
  · rwa [Literal.quoted_eq literal hnone] at hquoted
  · intro json reader place nullable argument position value h
    exact Coercion.null_of_enumeration htype hkind h

namespace Searches

def sending : Document where
  operations := .anonymous ⟨.query, [⟨"filter", ⟨1, 7⟩, .named "Filter" false, none⟩],
    [.field none "search" [⟨"filter", .variable "filter", ⟨2, 18⟩⟩] [] ⟨2, 3⟩], ⟨1, 1⟩⟩
  fragments := []

def sent : Literal :=
  .object
    [("ids", .list [.number (.integer 7 integerRange_seven), .list [.string "a"]]),
      ("page", .object [("behind", .string "b")]), ("order", .null)]

/-- A filter without members of enumerations can be written or sent. -/
theorem sending_supplied :
    (∀ name? operation, sending.choose none = .ok (name?, operation) →
      "filter" ∈ operation.declared.map (·.name)) ∧
    sent.variableNames = [] ∧ Members.get? [("filter", sent.toJson)] "filter" = some sent.toJson ∧
    (Plan.ofDocument service sending none [("filter", sent.toJson)] 16).isOk = true ∧
    (sent.enumerationNames = [] →
      Plan.ofDocument service (sending.replace "filter" sent) none [("filter", sent.toJson)] 16 =
        Plan.ofDocument service sending none [("filter", sent.toJson)] 16) := by
  have hdeclared : ∀ name? operation, sending.choose none = .ok (name?, operation) →
      "filter" ∈ operation.declared.map (·.name) := by
    intro name? operation h
    obtain ⟨-, rfl⟩ := Prod.mk.inj (Except.ok.inj h)
    decide
  have hok : (Plan.ofDocument service sending none [("filter", sent.toJson)] 16).isOk = true := by
    decide +kernel
  exact ⟨hdeclared, rfl, rfl, hok, (Plan.ofDocument_supplied hdeclared rfl rfl service 16).2.1⟩

end Searches

/-! ## A member of an enumeration -/

namespace Statuses

/-- A field that takes a status. -/
def schema : Schema :=
  { Schema.initial with
    types := Schema.initial.types ++
      [⟨"Status", none, .enumeration ["PLANNED"]⟩,
        ⟨"Query", none, .object [⟨"f", .named "Int" true, none,
          [⟨"s", .named "Status" false, none⟩]⟩]⟩] }

def written : Document where
  operations := .anonymous ⟨.query, [],
    [.field none "f" [⟨"s", .enumeration "PLANNED", ⟨1, 25⟩⟩] [] ⟨1, 22⟩], ⟨1, 1⟩⟩
  fragments := []

def sending : Document where
  operations := .anonymous ⟨.query, [⟨"s", ⟨1, 7⟩, .named "Status" false, none⟩],
    [.field none "f" [⟨"s", .variable "s", ⟨1, 27⟩⟩] [] ⟨1, 22⟩], ⟨1, 1⟩⟩
  fragments := []

/-- A status can be written, but whatever is sent is rejected. -/
theorem never_supplied : (Plan.ofDocument schema written none [] 16).isOk = true ∧
    ∀ json, ∃ rejection,
      Plan.ofDocument schema sending none [("s", json)] 16 = .error rejection := by
  refine ⟨by decide +kernel, fun json => ?_⟩
  cases json <;> exact ⟨_, by with_unfolding_all rfl⟩

end Statuses

end FeedGraph
