import FeedGraph.Proofs.Plan.Defaults
import FeedGraph.Proofs.Plan.Inlining
import FeedGraph.Proofs.Plan.Rewriting

/-!
# Constants: variables against what they are bound to

Variables are replaced by their values before arguments are read. The functions with `In` in their
names leave them where they are and look them up on the way: where an argument is given (`lookUp`),
where a value of some type is wanted (`coerceIn`), and inside values that are taken as they are
(`Literal.toValueIn`). The three have rules of their own for variables without a value, but come to
the same (`Coercion.coerceAllIn_eq`).

So a document is planned like the one in which constants stand for the variables
(`Plan.ofDocument_constants`).
-/

namespace FeedGraph

/-! ## Looking variables up -/

namespace Literal

variable {bindings : Members Value}

/-- What is given for an argument: a variable is looked up, and what is inside of a literal is left
as it is. This is what decides whether something is supplied at all. -/
def lookUp (bindings : Members Value) : Literal → Literal
  | .variable name =>
    match Members.get? bindings name with
    | some value => value.toLiteral
    | none => .variable name
  | literal => literal

mutual

/-- The value of a literal, where variables are looked up on the way, or the first that has no
value. This is how values of scalars that a schema defines are made, which may have variables
inside. -/
def toValueIn (bindings : Members Value) : Literal → Except String Value
  | .variable name =>
    match Members.get? bindings name with
    | some value => value.toLiteral.toValue
    | none => .error name
  | .null => .ok .null
  | .number n => .ok (.number (.ofJson n))
  | .string s => .ok (.string s)
  | .boolean b => .ok (.boolean b)
  | .enumeration name => .ok (.enumeration name)
  | .list items => (toValuesIn bindings items).map .list
  | .object members => (toValueMembersIn bindings members).map .object

def toValuesIn (bindings : Members Value) : List Literal → Except String (List Value)
  | [] => .ok []
  | item :: rest =>
    match toValueIn bindings item with
    | .error name => .error name
    | .ok value => (toValuesIn bindings rest).map (value :: ·)

def toValueMembersIn (bindings : Members Value) :
    List (String × Literal) → Except String (List (String × Value))
  | [] => .ok []
  | (name, literal) :: rest =>
    match toValueIn bindings literal with
    | .error name => .error name
    | .ok value => (toValueMembersIn bindings rest).map ((name, value) :: ·)

end

mutual

/-- Looking variables up on the way is replacing them first: `toValueIn` and `bind` go down the
literal in the same way, and a value that takes the place of a variable has no variables in it. -/
theorem toValueIn_eq (literal : Literal) :
    literal.toValueIn bindings = (literal.bind bindings).toValue := by
  match literal with
  | .variable name =>
    rw [toValueIn, bind]
    cases Members.get? bindings name <;> rfl
  | .list items => rw [toValueIn, bind, toValue, toValuesIn_eq items]
  | .object members => rw [toValueIn, bind, toValue, toValueMembersIn_eq members]
  | .null | .number _ | .string _ | .boolean _ | .enumeration _ => rfl

theorem toValuesIn_eq (items : List Literal) :
    toValuesIn bindings items = toValues (bindItems bindings items) := by
  match items with
  | [] => rfl
  | item :: rest =>
    cases hvalue : (item.bind bindings).toValue <;>
      simp only [toValuesIn, bindItems, toValues, toValueIn_eq item, toValuesIn_eq rest, hvalue]

theorem toValueMembersIn_eq (members : List (String × Literal)) :
    toValueMembersIn bindings members = toValueMembers (bindMembers bindings members) := by
  match members with
  | [] => rfl
  | (name, literal) :: rest =>
    cases hvalue : (literal.bind bindings).toValue <;>
      simp only [toValueMembersIn, bindMembers, toValueMembers, toValueIn_eq literal,
        toValueMembersIn_eq rest, hvalue]

end

theorem lookUp_eq_variable_iff {literal : Literal} {name : String} :
    literal.lookUp bindings = .variable name ↔ literal.bind bindings = .variable name := by
  cases literal with
  | «variable» other => cases hvalue : Members.get? bindings other <;> simp [lookUp, bind, hvalue]
  | _ => simp [lookUp, bind]

end Literal

namespace Coercion

variable {schema : Schema} {reader : DefaultReader} {place : Position} {bindings : Members Value}

/-- A literal as a value of the type with a name, when variables are looked up on the way. The
difference from `coerceNamed` is in scalars that a schema defines (`toValueIn`) and in members
(`lookUp`). -/
def coerceNamedIn (schema : Schema) (readDefault : DefaultReader) (place : Position)
    (bindings : Members Value) (literal : Literal) (members : List (String × (Literal × Reading)))
    (name : String) (argument : String) (position : Position) : Except Rejection Value :=
  let mismatch : Except Rejection Value := .error (.mismatch argument name literal.kind position)
  match schema.type? name with
  | none => mismatch
  | some definition =>
    match definition.kind, literal with
    | .scalar, _ =>
      if Schema.isBuiltin name then
        match coerceBuiltin name literal with
        | some value => .ok value
        | none => mismatch
      else
        match literal.toValueIn bindings with
        | .ok value => .ok value
        | .error name => .error (.variableNotFound name position)
    | .enumeration values, .enumeration value =>
      if values.contains value then .ok (.enumeration value) else mismatch
    | .input fields, .object _ =>
      let supplied := members.map fun (n, l, reading) =>
        (n, ⟨l.lookUp bindings, position, reading⟩)
      .object <$> coerceArguments readDefault place fields supplied argument
    | _, _ => mismatch

mutual

/-- What a literal is as a value of any type, when variables are looked up on the way. A variable
without a value is null where the type allows it, and refused otherwise, under its own name. -/
def coerceIn (schema : Schema) (readDefault : DefaultReader) (place : Position)
    (bindings : Members Value) : Literal → Reading
  | .variable name =>
    match Members.get? bindings name with
    | some value => coerce schema readDefault place value.toLiteral
    | none => fun type _ position =>
      if type.nullable then .ok .null else .error (.variableNotFound name position)
  | .null => fun type argument position =>
    if type.nullable then .ok .null else .error (.missingArgument argument position)
  | .list items =>
    let readings := coerceItemsIn schema readDefault place bindings items
    fun type argument position =>
      match type with
      | .list item _ => .list <$> readings.mapM fun reading => reading item argument position
      | .named name _ =>
        coerceNamedIn schema readDefault place bindings (.list items) [] name argument position
  | .object members =>
    let readings := coerceMembersIn schema readDefault place bindings members
    fun type argument position =>
      wrapped (coerceNamedIn schema readDefault place bindings (.object members) readings · argument
        position) type
  | .number n => fun type argument position =>
    wrapped (coerceNamedIn schema readDefault place bindings (.number n) [] · argument position) type
  | .string s => fun type argument position =>
    wrapped (coerceNamedIn schema readDefault place bindings (.string s) [] · argument position) type
  | .boolean b => fun type argument position =>
    wrapped (coerceNamedIn schema readDefault place bindings (.boolean b) [] · argument position) type
  | .enumeration value => fun type argument position =>
    wrapped (coerceNamedIn schema readDefault place bindings (.enumeration value) [] · argument
      position) type

def coerceItemsIn (schema : Schema) (readDefault : DefaultReader) (place : Position)
    (bindings : Members Value) : List Literal → List Reading
  | [] => []
  | item :: rest =>
    coerceIn schema readDefault place bindings item ::
      coerceItemsIn schema readDefault place bindings rest

def coerceMembersIn (schema : Schema) (readDefault : DefaultReader) (place : Position)
    (bindings : Members Value) : List (String × Literal) → List (String × (Literal × Reading))
  | [] => []
  | (name, literal) :: rest =>
    (name, literal, coerceIn schema readDefault place bindings literal) ::
      coerceMembersIn schema readDefault place bindings rest

end

/-- The values of a field's arguments, when variables are looked up on the way: what
`Coercion.coerceAll` is for variables that are replaced beforehand. -/
def coerceAllIn (schema : Schema) (bindings : Members Value) (field : String) (place : Position)
    (definitions : List InputDef) (arguments : List Argument) : Except Rejection (Members Value) :=
  let reader := readDefault schema place (defaultCount schema + 1)
  let supplied := arguments.map fun argument =>
    (argument.name, Supplied.mk (argument.value.lookUp bindings) argument.position
      (coerceIn schema reader place bindings argument.value))
  coerceArguments reader place definitions supplied field

/-! ## Arguments -/

/-- Two supplied things that are read alike, of which both or none are variables. Apart from its
reading, this is all that coercion of arguments sees of what is supplied. -/
structure Supplied.Alike (first second : Supplied) : Prop where
  /-- they stand at one place -/
  position : first.position = second.position
  /-- they are read alike -/
  reading : first.reading = second.reading
  /-- they are the same variable if they are variables -/
  variable_iff : ∀ name, first.literal = .variable name ↔ second.literal = .variable name

theorem coerceArgument_alike {first second : Supplied} (h : first.Alike second)
    (definition : InputDef) :
    coerceArgument reader place definition (some first) =
      coerceArgument reader place definition (some second) := by
  obtain ⟨literal, position, reading⟩ := first
  obtain ⟨literal', position', reading'⟩ := second
  obtain ⟨rfl, rfl, hvariable⟩ := h
  by_cases hliteral : ∃ name, literal = .variable name
  · obtain ⟨name, rfl⟩ := hliteral
    obtain rfl : literal' = .variable name := (hvariable name).mp rfl
    rfl
  · have hliteral' : ∀ name, literal' ≠ .variable name :=
      fun name heq => hliteral ⟨name, (hvariable name).mpr heq⟩
    rw [coerceArgument_some fun name heq => hliteral ⟨name, heq⟩, coerceArgument_some hliteral']

section

variable {α : Type} {f g : α → Supplied}

/-- Declarations take what is supplied for them, so that what is left in the end has the same names
on both sides. The induction is on the declarations. -/
theorem coerceDeclared_alike (h : ∀ a, (f a).Alike (g a)) (definitions : List InputDef)
    (given : Members α) (values : Members Value) :
    Parallel (fun first second => first.1 = second.1 ∧
        Members.names first.2 = Members.names second.2)
      (coerceDeclared reader place definitions (given.map fun pair => (pair.1, f pair.2)) values)
      (coerceDeclared reader place definitions (given.map fun pair => (pair.1, g pair.2))
        values) := by
  induction definitions generalizing given values with
  | nil => exact .ok ⟨rfl, by simp [Members.names]⟩
  | cons definition rest ih =>
    have hargument : coerceArgument reader place definition
          (Members.get? (given.map fun pair => (pair.1, f pair.2)) definition.name) =
        coerceArgument reader place definition
          (Members.get? (given.map fun pair => (pair.1, g pair.2)) definition.name) := by
      rw [Members.get?_map, Members.get?_map]
      cases Members.get? given definition.name with
      | none => rfl
      | some a => exact coerceArgument_alike (h a) definition
    rw [coerceDeclared, coerceDeclared, hargument, Members.erase_map, Members.erase_map]
    cases coerceArgument reader place definition
        (Members.get? (given.map fun pair => (pair.1, g pair.2)) definition.name) with
    | error rejection => exact .error rejection
    | ok value? => exact ih _ _

theorem coerceArguments_alike (h : ∀ a, (f a).Alike (g a)) (definitions : List InputDef)
    (given : List (String × α)) (owner : String) :
    coerceArguments reader place definitions (given.map fun pair => (pair.1, f pair.2)) owner =
      coerceArguments reader place definitions (given.map fun pair => (pair.1, g pair.2)) owner := by
  have hkept : ∀ supply : α → Supplied,
      Members.ofPairs ((given.map fun pair => (pair.1, supply pair.2)).filter
          (·.1 ≠ "__typename")) =
        (Members.ofPairs (given.filter (·.1 ≠ "__typename"))).map fun pair =>
          (pair.1, supply pair.2) := by
    intro supply
    rw [List.filter_map, ← Members.ofPairs_map]
    rfl
  rw [coerceArguments, coerceArguments, hkept f, hkept g]
  refine (coerceDeclared_alike h definitions _ []).bind_eq ?_
  rintro ⟨values, stray⟩ ⟨_, stray'⟩ ⟨rfl, hstray⟩
  have hempty : stray.isEmpty = stray'.isEmpty := by
    rw [← List.isEmpty_map (f := Prod.fst), ← List.isEmpty_map (f := Prod.fst)]
    exact congrArg List.isEmpty hstray
  simp only [hstray, hempty]

end

/-! ## Literals -/

theorem coerceItemsIn_eq_map (items : List Literal) :
    coerceItemsIn schema reader place bindings items =
      items.map (coerceIn schema reader place bindings) := by
  induction items with
  | nil => rfl
  | cons item rest ih => rw [coerceItemsIn, ih, List.map_cons]

theorem coerceMembersIn_eq_map (members : List (String × Literal)) :
    coerceMembersIn schema reader place bindings members =
      members.map fun member =>
        (member.1, member.2, coerceIn schema reader place bindings member.2) := by
  induction members with
  | nil => rfl
  | cons member rest ih => rw [coerceMembersIn, ih, List.map_cons]

theorem kind_bind {literal : Literal} (h : ∀ name, literal ≠ .variable name) :
    (literal.bind bindings).kind = literal.kind := by
  cases literal with
  | «variable» name => exact absurd rfl (h name)
  | _ => rfl

theorem coerceBuiltin_bind {literal : Literal} (h : ∀ name, literal ≠ .variable name)
    (type : String) : coerceBuiltin type (literal.bind bindings) = coerceBuiltin type literal := by
  cases literal with
  | «variable» name => exact absurd rfl (h name)
  | _ => rfl

theorem coerceArgumentsIn_eq {members : List (String × Literal)}
    (hmembers : ∀ member ∈ members, coerceIn schema reader place bindings member.2 =
      coerce schema reader place (member.2.bind bindings)) (fields : List InputDef)
    (owner : String) (position : Position) :
    coerceArguments reader place fields
        ((coerceMembersIn schema reader place bindings members).map fun (n, l, reading) =>
          (n, ⟨l.lookUp bindings, position, reading⟩)) owner =
      coerceArguments reader place fields
        ((coerceMembers schema reader place (Literal.bindMembers bindings members)).map
          fun (n, l, reading) => (n, ⟨l, position, reading⟩)) owner := by
  have hreadings : (coerceMembersIn schema reader place bindings members).map
        (fun (n, l, reading) => (n, (⟨l.lookUp bindings, position, reading⟩ : Supplied))) =
      members.map fun member => (member.1, ⟨member.2.lookUp bindings, position,
        coerce schema reader place (member.2.bind bindings)⟩) := by
    rw [coerceMembersIn_eq_map, List.map_map]
    refine List.map_congr_left fun member hmember => ?_
    simp only [Function.comp_apply, hmembers member hmember]
  have hreadings' : (coerceMembers schema reader place (Literal.bindMembers bindings members)).map
        (fun (n, l, reading) => (n, (⟨l, position, reading⟩ : Supplied))) =
      members.map fun member => (member.1, ⟨member.2.bind bindings, position,
        coerce schema reader place (member.2.bind bindings)⟩) := by
    rw [coerceMembers_eq_map, Literal.bindMembers_eq_map, List.map_map, List.map_map]
    rfl
  have halike : ∀ literal : Literal, Supplied.Alike
      ⟨literal.lookUp bindings, position, coerce schema reader place (literal.bind bindings)⟩
      ⟨literal.bind bindings, position, coerce schema reader place (literal.bind bindings)⟩ :=
    fun _ => ⟨rfl, rfl, fun _ => Literal.lookUp_eq_variable_iff⟩
  rw [hreadings, hreadings']
  exact coerceArguments_alike halike fields members owner

theorem coerceNamedIn_eq {literal : Literal} (hliteral : ∀ name, literal ≠ .variable name)
    {members : List (String × Literal)}
    (hmembers : ∀ member ∈ members, coerceIn schema reader place bindings member.2 =
      coerce schema reader place (member.2.bind bindings)) (name argument : String)
    (position : Position) :
    coerceNamedIn schema reader place bindings literal
        (coerceMembersIn schema reader place bindings members) name argument position =
      coerceNamed schema reader place (literal.bind bindings)
        (coerceMembers schema reader place (Literal.bindMembers bindings members)) name argument
        position := by
  rw [coerceNamedIn, coerceNamed, kind_bind hliteral]
  cases schema.type? name with
  | none => rfl
  | some definition =>
    obtain ⟨_, _, kind⟩ := definition
    cases kind with
    | scalar =>
      cases hbuiltin : coerceBuiltin name literal <;>
        cases hvalue : (literal.bind bindings).toValue <;>
          simp only [coerceOpaque, Literal.toValueIn_eq, coerceBuiltin_bind hliteral, hbuiltin,
            hvalue]
    | input fields =>
      cases literal with
      | «variable» other => exact absurd rfl (hliteral other)
      | object given =>
        exact congrArg (Value.object <$> ·) (coerceArgumentsIn_eq hmembers fields argument position)
      | _ => rfl
    | enumeration values =>
      cases literal with
      | «variable» other => exact absurd rfl (hliteral other)
      | _ => rfl
    | _ => rfl

/-- The induction is on the literal, along `coerceIn`. Where it is a variable, both sides read the
value that it has; lists and objects are read item by item. -/
theorem coerceIn_eq (literal : Literal) :
    coerceIn schema reader place bindings literal =
      coerce schema reader place (literal.bind bindings) := by
  have hsimple : ∀ {literal : Literal} (hliteral : ∀ name, literal ≠ .variable name),
      coerceNamedIn schema reader place bindings literal [] =
        coerceNamed schema reader place (literal.bind bindings) [] := by
    intro literal hliteral
    funext name argument position
    exact @coerceNamedIn_eq _ _ _ _ _ hliteral [] (fun _ hmem => absurd hmem List.not_mem_nil) _ _ _
  induction literal using Literal.structural with
  | unbound name =>
    cases hvalue : Members.get? bindings name <;> simp only [coerceIn, Literal.bind, hvalue, coerce]
  | null => simp only [coerceIn, Literal.bind, coerce]
  | list items ih =>
    have hitems : coerceItemsIn schema reader place bindings items =
        coerceItems schema reader place (Literal.bindItems bindings items) := by
      rw [coerceItemsIn_eq_map, coerceItems_eq_map, Literal.bindItems_eq_map, List.map_map]
      exact List.map_congr_left ih
    funext type argument position
    cases type <;> simp [coerceIn, hitems, hsimple, Literal.bind, coerce]
  | object members ih =>
    funext type argument position
    have hnamed := fun name =>
      @coerceNamedIn_eq schema reader place bindings (.object members)
        (fun _ => Literal.noConfusion) members ih name argument position
    simp only [coerceIn, hnamed, Literal.bind, coerce]
  | _ => simp [coerceIn, hsimple, Literal.bind, coerce]

/-- So it makes no difference whether variables are replaced before arguments are read or on the
way. The two supply things that are `Supplied.Alike`. -/
theorem coerceAllIn_eq (field : String) (definitions : List InputDef) (arguments : List Argument) :
    coerceAllIn schema bindings field place definitions arguments =
      coerceAll schema bindings field place definitions arguments := by
  have halike : ∀ argument : Argument, Supplied.Alike
      ⟨argument.value.lookUp bindings, argument.position, coerce schema
        (readDefault schema place (defaultCount schema + 1)) place (argument.value.bind bindings)⟩
      ⟨argument.value.bind bindings, argument.position, coerce schema
        (readDefault schema place (defaultCount schema + 1)) place (argument.value.bind bindings)⟩ :=
    fun _ => ⟨rfl, rfl, fun _ => Literal.lookUp_eq_variable_iff⟩
  have hgiven := @coerceArguments_alike (readDefault schema place (defaultCount schema + 1)) place
    _ _ _ halike definitions (arguments.map fun argument => (argument.name, argument)) field
  simp only [List.map_map] at hgiven
  simp only [coerceAllIn, coerceAll, argumentsWithin, coerceIn_eq]
  exact hgiven

end Coercion

/-! ## Documents without variables -/

namespace Literal

/-- With no values at all nothing is replaced. -/
@[simp] theorem bind_nil (literal : Literal) : literal.bind [] = literal := by
  induction literal using structural with
  | list items ih => rw [bind, bindItems_eq_map, List.map_congr_left ih, List.map_id']
  | object members ih =>
    have hmembers : members.map (fun member => (member.1, member.2.bind [])) = members := by
      conv_rhs => rw [← List.map_id members]
      exact List.map_congr_left fun member hmember => by rw [ih member hmember, id]
    rw [bind, bindMembers_eq_map, hmembers]
  | _ => rfl

end Literal

namespace Selection

mutual

/-- The literals that a selection gives to arguments, at any depth. Fragments are not entered. -/
def literals : Selection → List Literal
  | .field _ _ arguments selections _ => arguments.map (·.value) ++ literalsAll selections
  | .spread _ _ => []
  | .inline selections _ => literalsAll selections

def literalsAll : List Selection → List Literal
  | [] => []
  | selection :: rest => selection.literals ++ literalsAll rest

end

variable {f : Literal → Literal}

mutual

theorem uses_rewrite (selection : Selection) : (selection.rewrite f).uses = selection.uses := by
  match selection with
  | .field _ _ _ selections _ | .inline selections _ =>
    simp only [rewrite, uses, usesAll_rewriteAll selections]
  | .spread _ _ => simp only [rewrite, uses]

theorem usesAll_rewriteAll (selections : List Selection) :
    usesAll (rewriteAll f selections) = usesAll selections := by
  match selections with
  | [] => simp only [rewriteAll]
  | selection :: rest =>
    simp only [rewriteAll, usesAll, uses_rewrite selection, usesAll_rewriteAll rest]

end

mutual

theorem literals_rewrite (selection : Selection) :
    (selection.rewrite f).literals = selection.literals.map f := by
  match selection with
  | .field _ _ arguments selections _ =>
    simp only [rewrite, literals, literalsAll_rewriteAll selections, List.map_append, List.map_map]
    rfl
  | .spread _ _ => simp only [rewrite, literals, List.map_nil]
  | .inline selections _ => simp only [rewrite, literals, literalsAll_rewriteAll selections]

theorem literalsAll_rewriteAll (selections : List Selection) :
    literalsAll (rewriteAll f selections) = (literalsAll selections).map f := by
  match selections with
  | [] => simp only [rewriteAll, literalsAll, List.map_nil]
  | selection :: rest =>
    simp only [rewriteAll, literalsAll, literals_rewrite selection, literalsAll_rewriteAll rest,
      List.map_append]

end

end Selection

/-- A literal is given to an argument, in selections or in a fragment that they lead to. -/
def Gives (fragments : List Fragment) (selections : List Selection) (literal : Literal) : Prop :=
  literal ∈ Selection.literalsAll selections ∨
    ∃ name fragment, Reached fragments selections name ∧
      fragments.find? (·.name = name) = some fragment ∧
      literal ∈ Selection.literalsAll fragment.selections

/-- Rewriting literals does not change which fragments are led to (`usesAll_rewriteAll`), so that
what is given afterwards is what was given before, rewritten. -/
theorem Gives.of_rewrite {f : Literal → Literal} {fragments : List Fragment}
    {selections : List Selection} {literal : Literal}
    (h : Gives (fragments.map (·.rewrite f)) (Selection.rewriteAll f selections) literal) :
    ∃ before, Gives fragments selections before ∧ f before = literal := by
  have huses : Uses (fragments.map (·.rewrite f)) = Uses fragments := by
    funext name used
    simp only [Uses, find?_rewrite, Option.map_eq_some_iff, exists_exists_and_eq_and,
      Fragment.selections_rewrite, Selection.usesAll_rewriteAll]
  rcases h with h | ⟨name, fragment, ⟨used, hused, hpath⟩, hfragment, h⟩
  · rw [Selection.literalsAll_rewriteAll] at h
    obtain ⟨before, hbefore, rfl⟩ := List.mem_map.mp h
    exact ⟨before, .inl hbefore, rfl⟩
  · rw [find?_rewrite] at hfragment
    obtain ⟨written, hwritten, rfl⟩ := Option.map_eq_some_iff.mp hfragment
    rw [Fragment.selections_rewrite, Selection.literalsAll_rewriteAll] at h
    obtain ⟨before, hbefore, rfl⟩ := List.mem_map.mp h
    rw [Selection.usesAll_rewriteAll] at hused
    rw [huses] at hpath
    exact ⟨before, .inr ⟨name, written, ⟨used, hused, hpath⟩, hwritten, hbefore⟩, rfl⟩

/-- An operation that declares no variables and has values in their places. -/
def Operation.constants (bindings : Members Value) (operation : Operation) : Operation :=
  { operation.rewrite (·.bind bindings) with declared := [] }

/-- A document of such operations, with values for variables in its fragments, too. -/
def Document.constants (bindings : Members Value) (document : Document) : Document :=
  ⟨document.operations.map (·.constants bindings),
    document.fragments.map (·.rewrite (·.bind bindings))⟩

open Coercion in
/-- Variables can be exchanged for the constants that they are bound to. If all variables of an
operation have values, then there are none left in the document with the values in their places, in
which none are declared. For the arguments of any field, looking variables up on the way comes to
the same as reading the constants. And the documents are planned alike, or rejected for the same
reason at the same place. -/
theorem Plan.ofDocument_constants {document : Document} {operationName? : Option String}
    {supplied : Members Json} {name? : Option String} {operation : Operation}
    {bindings : Members Value} (hchoose : document.choose operationName? = .ok (name?, operation))
    (hbindings : operation.bindings supplied = .ok bindings)
    (hbound : ∀ literal, Gives document.fragments operation.selections literal →
      literal.Bound bindings) (schema : Schema) (others : Members Json) (depthLimit : Nat) :
    (document.constants bindings).choose operationName? =
      .ok (name?, operation.constants bindings) ∧
    (operation.constants bindings).declared = [] ∧
    (∀ literal, Gives (document.constants bindings).fragments
        (operation.constants bindings).selections literal → literal.variableNames = []) ∧
    (∀ field place definitions arguments,
      coerceAllIn schema bindings field place definitions arguments =
        coerceAll schema [] field place definitions
          (arguments.map (·.rewrite (·.bind bindings)))) ∧
    ofDocument schema (document.constants bindings) operationName? others depthLimit =
      ofDocument schema document operationName? supplied depthLimit := by
  have hconstant : ∀ literal : Literal, (literal.bind bindings).bind [] = literal.bind bindings :=
    fun literal => Literal.bind_nil _
  refine ⟨?_, rfl, fun literal h => ?_, fun field place definitions arguments => ?_, ?_⟩
  · rw [Document.constants, Document.choose_map, hchoose]
    rfl
  · obtain ⟨before, hbefore, rfl⟩ := h.of_rewrite
    exact Literal.variableNames_bind (hbound before hbefore)
  · rw [coerceAllIn_eq, coerceAll_rewrite hconstant]
  · refine @ofDocument_rewrite document operationName? (·.bind bindings) (·.constants bindings)
      supplied others (fun _ => rfl) (fun _ => rfl) (fun _ => rfl) (fun chosen? chosen h => ?_)
      schema depthLimit
    obtain ⟨-, rfl⟩ := Prod.mk.inj (Except.ok.inj (hchoose.symm.trans h))
    rw [hbindings]
    exact .ok hconstant

namespace Searches

open Coercion

/-- The types together with one for queries, which search. -/
def service : Schema :=
  { schema with
    types := schema.types ++
      [⟨"Query", none, .object [⟨"search", .named "Int" true, none, definitions⟩]⟩] }

/-- A search with variables, of which one has a default. A single id stands for a list of lists. -/
def search : Operation :=
  ⟨.query,
    [⟨"one", ⟨1, 7⟩, .named "ID" false, none⟩,
      ⟨"year", ⟨1, 18⟩, .named "Date" true, some (.number (.int64 1999))⟩],
    [.spread "Found" ⟨2, 3⟩], ⟨1, 1⟩⟩

def request : Document where
  operations := .anonymous search
  fragments := [⟨"Found", "Query", [.field none "search" [filter] [] ⟨5, 3⟩], ⟨4, 1⟩⟩]

theorem integerRange_seven : Json.IntegerRange 7 := by decide

def supplied : Members Json := [("one", .number (.integer 7 integerRange_seven))]

theorem bound_request {literal : Literal} (h : Gives request.fragments search.selections literal) :
    literal.Bound bindings := by
  rcases h with h | ⟨name, fragment, -, hfragment, h⟩
  · cases h
  · obtain rfl := List.mem_singleton.mp (List.mem_of_find?_eq_some hfragment)
    have hfilter : literal = filter.value := by
      simpa [Selection.literalsAll, Selection.literals] using h
    rw [hfilter]
    decide

theorem constants_request : request.choose none = .ok (none, search) ∧
    search.bindings supplied = .ok bindings ∧
    (∀ literal, Gives request.fragments search.selections literal → literal.Bound bindings) ∧
    (Plan.ofDocument service request none supplied 16).isOk = true ∧
    (request.constants bindings).choose none = .ok (none, search.constants bindings) ∧
    (search.constants bindings).declared = [] ∧
    (∀ literal, Gives (request.constants bindings).fragments (search.constants bindings).selections
        literal → literal.variableNames = []) ∧
    (∀ field place definitions arguments,
      coerceAllIn service bindings field place definitions arguments =
        coerceAll service [] field place definitions
          (arguments.map (·.rewrite (·.bind bindings)))) ∧
    Plan.ofDocument service (request.constants bindings) none [] 16 =
      Plan.ofDocument service request none supplied 16 := by
  have hbindings : search.bindings supplied = .ok bindings := by
    rfl
  have hok : (Plan.ofDocument service request none supplied 16).isOk = true := by
    decide +kernel
  exact ⟨rfl, hbindings, fun _ => bound_request, hok,
    Plan.ofDocument_constants rfl hbindings (fun _ => bound_request) service [] 16⟩

end Searches

end FeedGraph
