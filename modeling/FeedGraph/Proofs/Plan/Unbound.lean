import FeedGraph.Proofs.Plan.Bindings
import FeedGraph.Proofs.Plan.Rewriting
import FeedGraph.Proofs.Plan.Visits

/-!
# Unbound: variables without a value

A variable that has no value may have been declared and left out, or not declared at all. Coercion
does not tell the two apart, and does without the variable where it can: an argument that is such a
variable counts as left out, and inside of lists the variable counts as null. So an operation can
use variables that it does not declare, as if it declared them to be nullable. Only where a variable
is required, it has to be declared (`Plan.ofDocument_undeclared`).

`Requires` says where a variable is required: there is no value without it, and no default either.
-/

namespace FeedGraph

/-! ## Variables that are required -/

/-- A literal is supplied for a declaration. Of declarations with one name the first counts; nothing
is left for the others. -/
structure Supplies (definitions : List InputDef) (members : List (String × Literal))
    (definition : InputDef) (literal : Literal) : Prop where
  /-- no declaration before it has the name -/
  first : definitions.find? (·.name = definition.name) = some definition
  /-- what is supplied under the name of the name of a type does not count -/
  ne_typename : definition.name ≠ "__typename"
  /-- the literal is supplied under the name -/
  supplied : supplied? members definition.name = some literal

mutual

/-- A literal stands for no value of a type unless a variable has a value. The constructors are the
ways in which the variable can be where it is needed: it is the literal, or it is inside of it, at
any depth. In a scalar that a schema defines it is needed wherever it is. -/
inductive Requires (schema : Schema) (name : String) : TypeRef → Literal → Prop where
  /-- the variable itself, where null is not allowed -/
  | here {type : TypeRef} : type.nullable = false → Requires schema name type (.variable name)
  /-- an item of a list -/
  | item {item : TypeRef} {nullable : Bool} {items : List Literal} {literal : Literal} :
      literal ∈ items → Requires schema name item literal →
        Requires schema name (.list item nullable) (.list items)
  /-- an object that is the only item of a list -/
  | single {item : TypeRef} {nullable : Bool} {members : List (String × Literal)} :
      Requires schema name item (.object members) →
        Requires schema name (.list item nullable) (.object members)
  /-- a scalar that the schema defines takes values as they are, with all that is in them -/
  | custom {type : String} {nullable : Bool} {definition : TypeDef} {literal : Literal} :
      schema.type? type = some definition → definition.kind = .scalar →
        Schema.isBuiltin type = false → (∀ other, literal ≠ .variable other) →
          name ∈ literal.variableNames → Requires schema name (.named type nullable) literal
  /-- a field of an input object -/
  | object {type : String} {nullable : Bool} {definition : TypeDef} {fields : List InputDef}
      {members : List (String × Literal)} :
      schema.type? type = some definition → definition.kind = .input fields →
        RequiresAmong schema name fields members →
          Requires schema name (.named type nullable) (.object members)

/-- Arguments have no values unless a variable has a value. -/
inductive RequiresAmong (schema : Schema) (name : String) :
    List InputDef → List (String × Literal) → Prop where
  /-- the variable itself, where nothing may be left out -/
  | unfilled {definitions : List InputDef} {members : List (String × Literal)}
      {definition : InputDef} :
      Supplies definitions members definition (.variable name) →
        definition.type.nullable = false → definition.default? = none →
          RequiresAmong schema name definitions members
  /-- a literal that requires it -/
  | inside {definitions : List InputDef} {members : List (String × Literal)}
      {definition : InputDef} {literal : Literal} :
      Supplies definitions members definition literal → (∀ other, literal ≠ .variable other) →
        Requires schema name definition.type literal →
          RequiresAmong schema name definitions members

end

/-- What is supplied is one of the members. -/
theorem mem_of_supplied? {members : List (String × Literal)} {name : String} {literal : Literal}
    (h : supplied? members name = some literal) : (name, literal) ∈ members := by
  obtain ⟨member, hmember, rfl⟩ := Option.map_eq_some_iff.mp h
  obtain ⟨hmem, hname⟩ := List.mem_filter.mp (List.mem_of_getLast? hmember)
  obtain rfl : member.1 = name := by simpa using hname
  exact hmem

theorem supplied?_map (f : Literal → Literal) (members : List (String × Literal)) (name : String) :
    supplied? (members.map fun member => (member.1, f member.2)) name =
      (supplied? members name).map f := by
  rw [supplied?, supplied?, List.filter_map, List.getLast?_map, Option.map_map, Option.map_map]
  rfl

namespace Literal

variable {bindings : Members Value}

mutual

/-- If a literal has a value, then all variables in it have one: unlike `coerce`, `toValue` has no
type that would let one be null. -/
theorem bound_of_toValue (literal : Literal) {value : Value}
    (h : (literal.bind bindings).toValue = .ok value) : literal.Bound bindings := by
  match literal with
  | .variable name =>
    intro used hused
    obtain rfl := List.mem_singleton.mp hused
    rw [bind] at h
    cases hvalue : Members.get? bindings used with
    | some value => simp [Members.has, hvalue]
    | none =>
      rw [hvalue] at h
      cases h
  | .list items =>
    rw [bind, toValue] at h
    obtain ⟨values, hvalues, -⟩ := ok_of_map h
    exact bound_of_toValues items hvalues
  | .object members =>
    rw [bind, toValue] at h
    obtain ⟨values, hvalues, -⟩ := ok_of_map h
    exact bound_of_toValueMembers members hvalues
  | .null | .number _ | .string _ | .boolean _ | .enumeration _ =>
    exact fun _ hused => absurd hused List.not_mem_nil

theorem bound_of_toValues (items : List Literal) {values : List Value}
    (h : toValues (bindItems bindings items) = .ok values) :
    ∀ name ∈ itemVariableNames items, Members.has bindings name = true := by
  match items with
  | [] => exact fun _ hused => absurd hused List.not_mem_nil
  | item :: rest =>
    rw [bindItems, toValues] at h
    split at h
    · cases h
    · next value hvalue =>
      obtain ⟨others, hothers, -⟩ := ok_of_map h
      intro name hname
      rcases List.mem_append.mp hname with hname | hname
      · exact bound_of_toValue item hvalue name hname
      · exact bound_of_toValues rest hothers name hname

theorem bound_of_toValueMembers (members : List (String × Literal)) {values : List (String × Value)}
    (h : toValueMembers (bindMembers bindings members) = .ok values) :
    ∀ name ∈ memberVariableNames members, Members.has bindings name = true := by
  match members with
  | [] => exact fun _ hused => absurd hused List.not_mem_nil
  | (key, literal) :: rest =>
    rw [bindMembers, toValueMembers] at h
    split at h
    · cases h
    · next value hvalue =>
      obtain ⟨others, hothers, -⟩ := ok_of_map h
      intro name hname
      rcases List.mem_append.mp hname with hname | hname
      · exact bound_of_toValue literal hvalue name hname
      · exact bound_of_toValueMembers rest hothers name hname

end

end Literal

namespace Coercion

variable {schema : Schema} {reader : DefaultReader} {place : Position} {bindings : Members Value}
  {name : String}

/-! ## Coercion does without variables only where it can -/

/-- If all arguments have been read, then each declaration that is the first with its name has, from
what is supplied under the name. -/
theorem exists_of_coerceDeclared {definitions : List InputDef} {supplied : Members Supplied}
    {values : Members Value} {result : Members Value × Members Supplied}
    (h : coerceDeclared reader place definitions supplied values = .ok result)
    {definition : InputDef}
    (hfirst : definitions.find? (·.name = definition.name) = some definition) :
    ∃ value?, coerceArgument reader place definition
      (Members.get? supplied definition.name) = .ok value? := by
  induction definitions generalizing supplied values with
  | nil => cases hfirst
  | cons other rest ih =>
    rw [coerceDeclared] at h
    obtain ⟨value?, hvalue, h⟩ := ok_of_bind h
    by_cases hname : other.name = definition.name
    · rw [List.find?_cons_of_pos (by simpa using hname)] at hfirst
      obtain rfl := Option.some.inj hfirst
      exact ⟨value?, hvalue⟩
    · rw [List.find?_cons_of_neg (by simpa using hname)] at hfirst
      obtain ⟨other?, hother⟩ := ih h hfirst
      rw [Members.get?_erase_of_ne supplied hname] at hother
      exact ⟨other?, hother⟩

theorem exists_of_coerceArguments {definitions : List InputDef} {pairs : List (String × Supplied)}
    {owner : String} {values : Members Value}
    (h : coerceArguments reader place definitions pairs owner = .ok values)
    {definition : InputDef} {literal : Literal}
    (hsupplies : Supplies definitions (literals pairs) definition literal) :
    ∃ supplied, (definition.name, supplied) ∈ pairs ∧ supplied.literal = literal ∧
      ∃ value?, coerceArgument reader place definition (some supplied) = .ok value? := by
  obtain ⟨read, hread, -⟩ := ok_of_bind h
  obtain ⟨value?, hvalue⟩ := exists_of_coerceDeclared hread hsupplies.first
  have hsupplied := hsupplies.supplied
  rw [supplied?_literals pairs hsupplies.ne_typename] at hsupplied
  obtain ⟨supplied, hget, rfl⟩ := Option.map_eq_some_iff.mp hsupplied
  rw [← kept, hget] at hvalue
  exact ⟨supplied, (mem_of_mem_kept (Members.mem_of_get? hget)).1, rfl, value?, hvalue⟩

/-- Arguments with values require no variable without one, if that is so of the literals in them. -/
theorem not_requiresAmong (hname : Members.get? bindings name = none) {definitions : List InputDef}
    {pairs : List (String × Supplied)} {members : List (String × Literal)}
    (hpairs : literals pairs = members.map fun member => (member.1, member.2.bind bindings))
    (hreading : ∀ pair ∈ pairs, pair.2.reading = coerce schema reader place pair.2.literal)
    (hinside : ∀ member ∈ members, ∀ type argument position value,
      coerce schema reader place (member.2.bind bindings) type argument position = .ok value →
        ¬ Requires schema name type member.2)
    {owner : String} {values : Members Value}
    (h : coerceArguments reader place definitions pairs owner = .ok values) :
    ¬ RequiresAmong schema name definitions members := by
  have hsupplies : ∀ {definition literal}, Supplies definitions members definition literal →
      Supplies definitions (literals pairs) definition (literal.bind bindings) := by
    rintro definition literal ⟨hfirst, hne, hsupplied⟩
    refine ⟨hfirst, hne, ?_⟩
    rw [hpairs, supplied?_map, hsupplied, Option.map_some]
  intro hrequires
  cases hrequires with
  | @unfilled _ _ definition hgiven hnullable hdefault =>
    obtain ⟨⟨literal, position, reading⟩, -, hliteral, value?, hvalue⟩ :=
      exists_of_coerceArguments h (hsupplies hgiven)
    rw [Literal.bind, hname] at hliteral
    obtain rfl : literal = .variable name := hliteral
    simp only [coerceArgument, given?, hnullable, hdefault] at hvalue
    cases hvalue
  | @inside _ _ definition literal hgiven hvariable hrequires =>
    obtain ⟨supplied, hmem, hliteral, value?, hvalue⟩ :=
      exists_of_coerceArguments h (hsupplies hgiven)
    have hne : ∀ other, supplied.literal ≠ .variable other := by
      intro other heq
      cases literal with
      | «variable» used => exact hvariable used rfl
      | _ => rw [hliteral] at heq; cases heq
    rw [coerceArgument_some hne, hreading _ hmem, hliteral] at hvalue
    obtain ⟨value, hvalue, -⟩ := ok_of_map hvalue
    exact hinside _ (mem_of_supplied? hgiven.supplied) _ _ _ _ hvalue hrequires

theorem exists_of_wrapped {inner : String → Except Rejection Value} {type : TypeRef} {value : Value}
    (h : wrapped inner type = .ok value) : ∃ single, inner type.underlying = .ok single := by
  induction type generalizing value with
  | named type nullable => exact ⟨value, h⟩
  | list item nullable ih =>
    obtain ⟨single, hsingle, -⟩ := ok_of_map h
    exact ih hsingle

/-- An object that is a single item of a list requires what it requires as the item. -/
theorem requires_underlying {members : List (String × Literal)} {type : TypeRef}
    (h : Requires schema name type (.object members)) :
    ∃ nullable, Requires schema name (.named type.underlying nullable) (.object members) := by
  induction type with
  | named type nullable => exact ⟨nullable, h⟩
  | list item nullable ih =>
    cases h with
    | single h => exact ih h

theorem toValue_of_custom {literal : Literal} {readings : List (String × (Literal × Reading))}
    {type argument : String} {position : Position} {definition : TypeDef} {value : Value}
    (htype : schema.type? type = some definition) (hkind : definition.kind = .scalar)
    (hbuiltin : Schema.isBuiltin type = false)
    (h : coerceNamed schema reader place literal readings type argument position = .ok value) :
    literal.toValue = .ok value := by
  obtain ⟨found, hfound, hcases⟩ := coerceNamed_cases h
  obtain rfl := Option.some.inj (htype.symm.trans hfound)
  rcases hcases with ⟨-, hother, -⟩ | ⟨-, -, hvalue⟩ | ⟨_, _, hother, -⟩ | ⟨_, _, _, hother, -⟩
  · rw [hbuiltin] at hother
    cases hother
  · exact hvalue
  · rw [hkind] at hother
    cases hother
  · rw [hkind] at hother
    cases hother

theorem arguments_of_input {literal : Literal} {readings : List (String × (Literal × Reading))}
    {type argument : String} {position : Position} {definition : TypeDef} {fields : List InputDef}
    {value : Value} (htype : schema.type? type = some definition)
    (hkind : definition.kind = .input fields)
    (h : coerceNamed schema reader place literal readings type argument position = .ok value) :
    ∃ values, coerceArguments reader place fields
      (readings.map fun (n, l, reading) => (n, ⟨l, position, reading⟩)) argument = .ok values := by
  obtain ⟨found, hfound, hcases⟩ := coerceNamed_cases h
  obtain rfl := Option.some.inj (htype.symm.trans hfound)
  rcases hcases with ⟨hother, -⟩ | ⟨hother, -⟩ | ⟨_, _, hother, -⟩ |
    ⟨_, _, values, hother, -, hread, -⟩
  · rw [hkind] at hother
    cases hother
  · rw [hkind] at hother
    cases hother
  · rw [hkind] at hother
    cases hother
  · rw [hkind] at hother
    obtain rfl := TypeKind.input.inj hother
    exact ⟨values, hread⟩

/-- A literal that has a value requires no variable without one. The induction is on the literal,
and the cases of `Requires` are taken in turn. -/
theorem not_requires (hname : Members.get? bindings name = none) (literal : Literal) (type : TypeRef)
    (argument : String) (position : Position) (value : Value)
    (h : coerce schema reader place (literal.bind bindings) type argument position = .ok value) :
    ¬ Requires schema name type literal := by
  have hcustom : ∀ {literal : Literal} {value : Value}, name ∈ literal.variableNames →
      (literal.bind bindings).toValue ≠ .ok value := by
    intro literal value hused hvalue
    have hbound := literal.bound_of_toValue hvalue name hused
    rw [Members.has, hname] at hbound
    cases hbound
  intro hrequires
  induction literal using Literal.structural generalizing type argument position value with
  | unbound used =>
    cases hrequires with
    | here hnullable =>
      simp only [Literal.bind, hname, coerce, hnullable] at h
      cases h
    | custom _ _ _ hvariable _ => exact hvariable used rfl
  | list items ih =>
    cases hrequires with
    | item hmem hrequires =>
      simp only [Literal.bind, coerce, coerceItems_eq_map, Literal.bindItems_eq_map,
        List.mapM_map] at h
      obtain ⟨values, hvalues, -⟩ := ok_of_map h
      obtain ⟨value, -, hvalue⟩ := exists_of_forall₂ (forall₂_of_mapM hvalues).flip hmem
      exact ih _ hmem _ _ _ _ hvalue hrequires
    | custom htype hkind hbuiltin _ hused =>
      simp only [Literal.bind, coerce] at h
      exact hcustom hused (toValue_of_custom htype hkind hbuiltin h)
  | object members ih =>
    simp only [Literal.bind, coerce] at h
    obtain ⟨single, hsingle⟩ := exists_of_wrapped h
    obtain ⟨nullable, hrequires⟩ := requires_underlying hrequires
    cases hrequires with
    | custom htype hkind hbuiltin _ hused =>
      exact hcustom hused (toValue_of_custom htype hkind hbuiltin hsingle)
    | object htype hkind hamong =>
      obtain ⟨values, hvalues⟩ := arguments_of_input htype hkind hsingle
      rw [coerceMembers_eq_map, Literal.bindMembers_eq_map, List.map_map, List.map_map] at hvalues
      refine not_requiresAmong hname ?_ (fun pair hpair => ?_) ih hvalues hamong
      · rw [literals, List.map_map]
        rfl
      · obtain ⟨member, -, rfl⟩ := List.mem_map.mp hpair
        rfl
  | _ =>
    cases hrequires with
    | custom _ _ _ _ hused => cases hused

theorem has_of_requiresAmong {field : String} {definitions : List InputDef}
    {arguments : List Argument} {values : Members Value}
    (h : coerceAll schema bindings field place definitions arguments = .ok values)
    (hrequires : RequiresAmong schema name definitions
      (arguments.map fun argument => (argument.name, argument.value))) :
    Members.has bindings name = true := by
  cases hname : Members.get? bindings name with
  | some value => simp [Members.has, hname]
  | none =>
    refine absurd hrequires (not_requiresAmong hname ?_ (fun pair hpair => ?_)
      (fun member _ => not_requires hname member.2) h)
    · rw [literals, List.map_map, List.map_map]
      rfl
    · obtain ⟨argument, -, rfl⟩ := List.mem_map.mp hpair
      rfl

end Coercion

/-! ## Variables that are declared -/

/-- An operation that declares more variables. -/
def Operation.declaring (extra : List VariableDefinition) (operation : Operation) : Operation :=
  { operation with declared := operation.declared ++ extra }

def Document.declaring (extra : List VariableDefinition) (document : Document) : Document :=
  { document with operations := document.operations.map (·.declaring extra) }

/-- Variables that are used and not declared. In an accepted operation all variables are declared
that an argument requires, of any field that is selected, at any depth and in fragments. Any other
variable is treated as if it were declared to be nullable and left out: declaring it makes no
difference. -/
theorem Plan.ofDocument_undeclared (schema : Schema) (document : Document)
    (operationName? : Option String) (supplied : Members Json) (depthLimit : Nat) :
    (∀ plan, ofDocument schema document operationName? supplied depthLimit = .ok plan →
      ∃ name? operation root, document.choose operationName? = .ok (name?, operation) ∧
        schema.root? operation.kind = some root ∧
        ∀ use, Selects schema document.fragments use root operation.selections →
          use.name = PlannedField.typename ∧ use.arguments = [] ∨
          ∃ definition, schema.field? use.container use.name = some definition ∧
            ∀ name, RequiresAmong schema name definition.arguments
                (use.arguments.map fun argument => (argument.name, argument.value)) →
              name ∈ operation.declared.map (·.name)) ∧
    ∀ extra : List VariableDefinition,
      (∀ definition ∈ extra, definition.type.nullable = true ∧ definition.default? = none ∧
        Members.get? supplied definition.name = none) →
      ofDocument schema (document.declaring extra) operationName? supplied depthLimit =
        ofDocument schema document operationName? supplied depthLimit := by
  refine ⟨fun plan h => ?_, fun extra hextra => ?_⟩
  · obtain ⟨name?, operation, root, bindings, hchoose, hroot, hbindings, hpassed⟩ :=
      allPassed_ofDocument h
    refine ⟨name?, operation, root, hchoose, hroot, fun use hselects => ?_⟩
    cases hpassed use hselects with
    | typename hname hnone => exact .inl ⟨hname, hnone⟩
    | declared _ hdefinition hvalues =>
      refine .inr ⟨_, hdefinition, fun name hrequires => ?_⟩
      have hhas := Coercion.has_of_requiresAmong hvalues hrequires
      exact Operation.declared_of_has hbindings hhas
  · have hgiven : ∀ definition ∈ extra,
        definition.type.nullable = true ∧ definition.given? supplied = none := by
      intro definition hmem
      obtain ⟨hnullable, hdefault, hsupplied⟩ := hextra definition hmem
      exact ⟨hnullable, VariableDefinition.given?_eq_none_iff.mpr ⟨hsupplied, hdefault⟩⟩
    rw [ofDocument, ofDocument, Document.declaring, Document.choose_map]
    cases document.choose operationName? with
    | error rejection => rfl
    | ok chosen =>
      have hbindings : (chosen.2.declaring extra).bindings supplied = chosen.2.bindings supplied :=
        Operation.bindingsFrom_append hgiven
      dsimp only [Except.map, bind, Except.bind]
      rw [ofOperation, ofOperation, hbindings]
      rfl

/-! ## A variable that is misspelt -/

namespace Misspelt

/-- A field that may be given a number. -/
def schema : Schema :=
  { Schema.initial with
    types := Schema.initial.types ++
      [⟨"Query", none, .object [⟨"f", .named "Int" true, none,
        [⟨"a", .named "Int" true, none⟩, ⟨"b", .list (.named "Int" true) true, none⟩]⟩]⟩] }

def operation : Operation :=
  ⟨.query, [],
    [.field none "f" [⟨"a", .variable "typo", ⟨1, 8⟩⟩, ⟨"b", .list [.variable "typo"], ⟨1, 18⟩⟩] []
      ⟨1, 3⟩], ⟨1, 1⟩⟩

def document : Document := ⟨.anonymous operation, []⟩

/-- The operation is accepted, although it uses a variable that is not declared. It is planned
without the argument that is the variable, and with null for the variable in the list. -/
theorem accepted : document.choose none = .ok (none, operation) ∧
    Selects schema [] ⟨"Query", "f", [⟨"a", .variable "typo", ⟨1, 8⟩⟩,
      ⟨"b", .list [.variable "typo"], ⟨1, 18⟩⟩], ⟨1, 3⟩⟩ "Query" operation.selections ∧
    "typo" ∉ operation.declared.map (·.name) ∧
    Plan.ofDocument schema document none [] 16 =
      .ok ⟨none, .query,
        [⟨none, "f", .named "Int" true, [("b", .list [.null])], [], ⟨1, 3⟩⟩]⟩ := by
  refine ⟨rfl, .here rfl List.mem_cons_self, List.not_mem_nil, ?_⟩
  with_unfolding_all rfl

end Misspelt

end FeedGraph
