import FeedGraph.Proofs.Plan.Accounts
import FeedGraph.Proofs.Plan.Termination

/-!
# Lookups: which types an operation looks up

While an operation is checked, types are looked up by name: those of the fields that it selects, and
those of their arguments with all that the values of these hold (`LooksUp`). The main statement is
`Plan.ofDocument_lookups`. In a schema that is accepted all of them are defined; no other types make
a difference; and what is rejected for the type of a field or of an argument is rejected because of
the definition that the type has, and not for lack of one.

That no other types make a difference is said of two schemas that agree on the types that are looked
up (`Checker.AgreesOn`). The one exception are arguments with defaults that never end: where
following them is given up depends on how many input fields with defaults the whole schema has, so
that two schemas may name different ones of them.
-/

namespace FeedGraph

open Relation

/-- A type is looked up for what is selected of a type: it is that of a field, or it is held by the
values of an argument of one. -/
inductive LooksUp (schema : Schema) (fragments : List Fragment) (container : String)
    (selections : List Selection) (name : String) : Prop where
  /-- the type of a field, inside all lists -/
  | field {use : FieldUse} {definition : FieldDef} :
      Selects schema fragments use container selections → use.name ≠ PlannedField.typename →
      schema.field? use.container use.name = some definition → definition.type.underlying = name →
        LooksUp schema fragments container selections name
  /-- what values of an argument are or hold -/
  | argument {use : FieldUse} {definition : FieldDef} {argument : InputDef} :
      Selects schema fragments use container selections → use.name ≠ PlannedField.typename →
      schema.field? use.container use.name = some definition → argument ∈ definition.arguments →
      ReflTransGen schema.Holds argument.type.underlying name →
        LooksUp schema fragments container selections name

namespace LooksUp

variable {schema : Schema} {fragments : List Fragment} {container name : String}
  {selections : List Selection}

theorem imp {container' : String} {selections' : List Selection}
    (hselects : ∀ use, Selects schema fragments use container selections →
      Selects schema fragments use container' selections')
    (h : LooksUp schema fragments container selections name) :
    LooksUp schema fragments container' selections' name := by
  cases h with
  | field huse hname hdefinition heq => exact .field (hselects _ huse) hname hdefinition heq
  | argument huse hname hdefinition hmem hreached =>
    exact .argument (hselects _ huse) hname hdefinition hmem hreached

/-- In a schema that is `Closed`, what is looked up is defined. -/
theorem defines (hclosed : schema.Closed) (h : LooksUp schema fragments container selections name) :
    schema.defines name = true := by
  cases h with
  | field _ _ hdefinition heq => exact heq ▸ hclosed.field hdefinition
  | argument _ _ hdefinition hmem hreached =>
    exact hclosed.reached (hclosed.argument hdefinition _ hmem) hreached

end LooksUp

/-! ## Arguments -/

namespace Coercion

variable {schema other : Schema} {place : Position} {bindings : Members Value} {field : String}
  {definitions : List InputDef} {arguments : List Argument}

/-- What is rejected as a value of a type is a literal for something that values of the type are or
hold; and if that is defined, it does not take the literal. So it is not for lack of a definition
that such a rejection is given. -/
def Misfit (schema : Schema) (type : String) : Rejection → Prop
  | .mismatch _ expected actual _ =>
    ReflTransGen schema.Holds type expected ∧ ∃ literal : Literal, literal.kind = actual ∧
      ∀ definition, schema.type? expected = some definition → ¬ Takes definition literal
  | _ => True

theorem refusals_misfit (schema : Schema) : Refusals schema (Misfit schema) where
  variableNotFound _ _ _ := trivial
  missingArgument _ _ _ := trivial
  strayArguments _ _ _ _ := trivial
  endlessDefault _ _ _ := trivial
  mismatch _ _ literal _ h := ⟨.refl, literal, rfl, h⟩
  inner _ _ rejection hholds h := by
    cases rejection with
    | mismatch => exact ⟨.head hholds h.1, h.2⟩
    | _ => trivial

/-- The instance of `faults_coerceAll` for `Misfit`: arguments of the wrong type are those of a
declared argument. -/
theorem exists_of_mismatch {argument expected : String} {actual : Literal.Kind} {position : Position}
    (h : coerceAll schema bindings field place definitions arguments =
      .error (.mismatch argument expected actual position)) :
    ∃ definition ∈ definitions,
      Misfit schema definition.type.underlying (.mismatch argument expected actual position) := by
  have hfaults : Faults
      (fun rejection => (∃ names, rejection = .strayArguments names field place) ∨
        ∃ definition ∈ definitions, Misfit schema definition.type.underlying rejection)
      (coerceAll schema bindings field place definitions arguments) := by
    refine faults_coerceAll (refusals_misfit schema) ?_ ?_ bindings arguments
    · exact fun definition hmem rejection h => .inr ⟨definition, hmem, h⟩
    · exact fun names => .inl ⟨names, rfl⟩
  rcases hfaults _ h with ⟨names, hstray⟩ | hmisfit
  · cases hstray
  · exact hmisfit

/-- The induction is on the steps. What a default needs is of types that are held by its own, so
that the schemas are the same within those, too. -/
theorem readDefault_of_same {definition : InputDef}
    (hsame : schema.SameWithin other definition.type.underlying) (steps : Nat) (default : Value)
    (position : Position) :
    readDefault schema place steps definition default position =
      readDefault other place steps definition default position := by
  induction steps generalizing definition default position with
  | zero => rfl
  | succ steps ih =>
    refine coerce_respects .eq hsame fun consulted hconsults default' position' _ => ?_
    exact ih (hsame.reached hconsults.reached) default' position'

theorem argumentsWithin_of_same
    (hsame : ∀ definition ∈ definitions, schema.SameWithin other definition.type.underlying)
    (steps : Nat) :
    argumentsWithin steps schema bindings field place definitions arguments =
      argumentsWithin steps other bindings field place definitions arguments := by
  refine argumentsWithin_respects_of_same .eq hsame fun consulted hconsulted default position _ => ?_
  refine readDefault_of_same ?_ steps default position
  rcases hconsulted with ⟨hmem, -, -⟩ | ⟨definition, hmem, literal, -, hconsults⟩
  · exact hsame consulted hmem
  · exact (hsame definition hmem).reached hconsults.reached

/-- Two schemas may allow different numbers of steps, since these depend on how many input fields
with defaults there are. That is not felt where the steps come to an end in either: both do the same
with enough steps for both. -/
theorem coerceAll_of_same
    (hsame : ∀ definition ∈ definitions, schema.SameWithin other definition.type.underlying)
    (h : Ended (coerceAll schema bindings field place definitions arguments) ∨
      Ended (coerceAll other bindings field place definitions arguments)) :
    coerceAll schema bindings field place definitions arguments =
      coerceAll other bindings field place definitions arguments := by
  -- enough steps for both
  let steps := defaultCount schema + defaultCount other + 1
  have hsteps : argumentsWithin steps schema bindings field place definitions arguments =
      argumentsWithin steps other bindings field place definitions arguments :=
    argumentsWithin_of_same hsame steps
  have hfirst := coerceAll_ends_or_loops schema bindings field place definitions arguments
  have hsecond := coerceAll_ends_or_loops other bindings field place definitions arguments
  have hlt : defaultCount schema < steps := by omega
  have hlt' : defaultCount other < steps := by omega
  rcases hfirst with ⟨hended, hmore⟩ | ⟨hnever, -⟩ <;>
    rcases hsecond with ⟨hended', hmore'⟩ | ⟨hnever', -⟩
  case inl.inl => rw [← hmore steps hlt, ← hmore' steps hlt', hsteps]
  case inl.inr =>
    rw [← hmore steps hlt, hsteps] at hended
    exact absurd hended (hnever' steps)
  case inr.inl =>
    rw [← hmore' steps hlt', ← hsteps] at hended'
    exact absurd hended' (hnever steps)
  case inr.inr => exact absurd h (not_or.mpr ⟨hnever _, hnever' _⟩)

end Coercion

/-! ## Two schemas -/

namespace Checker

open Coercion (Ended Respected)

variable {checker : Checker} {other : Schema} {spread spread' : Spreader}

/-- Another schema agrees on a type and on all that is looked up for what is selected of it. -/
structure AgreesOn (checker : Checker) (other : Schema) (container : String)
    (selections : List Selection) : Prop where
  /-- on the type -/
  type_eq : other.type? container = checker.schema.type? container
  /-- on what is looked up -/
  looked : ∀ name, LooksUp checker.schema checker.fragments container selections name →
    other.type? name = checker.schema.type? name

namespace AgreesOn

variable {container : String} {selections : List Selection}

theorem imp {selections' : List Selection} (h : AgreesOn checker other container selections)
    (hselects : ∀ use, Selects checker.schema checker.fragments use container selections' →
      Selects checker.schema checker.fragments use container selections) :
    AgreesOn checker other container selections' where
  type_eq := h.type_eq
  looked name hname := h.looked name (hname.imp hselects)

theorem mono {smaller : List Selection} (h : AgreesOn checker other container selections)
    (hsub : smaller ⊆ selections) : AgreesOn checker other container smaller :=
  h.imp fun _ huse => huse.mono hsub

theorem fragment {name : String} {place : Position} {fragment : Fragment}
    (h : AgreesOn checker other container [.spread name place])
    (hfragment : checker.fragments.find? (·.name = name) = some fragment) :
    AgreesOn checker other container fragment.selections :=
  h.imp fun _ huse => .spread List.mem_cons_self hfragment huse

theorem field_eq (h : AgreesOn checker other container selections) (name : String) :
    other.field? container name = checker.schema.field? container name := by
  rw [Schema.field?, Schema.field?, h.type_eq]

section

variable {alias? : Option String} {name : String} {arguments : List Argument}
  {inside : List Selection} {place : Position} {definition : FieldDef}

/-- The type of a field is looked up, so that the two schemas have the same definition of it; by
`inner` they also agree on what is selected there. -/
theorem of_field (h : AgreesOn checker other container [.field alias? name arguments inside place])
    (hname : name ≠ PlannedField.typename)
    (hdefinition : checker.schema.field? container name = some definition) :
    other.type? definition.type.underlying = checker.schema.type? definition.type.underlying := by
  have huse : Selects checker.schema checker.fragments ⟨container, name, arguments, place⟩ container
      [.field alias? name arguments inside place] := .here rfl List.mem_cons_self
  exact h.looked _ (.field huse hname hdefinition rfl)

theorem inner (h : AgreesOn checker other container [.field alias? name arguments inside place])
    (hname : name ≠ PlannedField.typename)
    (hdefinition : checker.schema.field? container name = some definition) :
    AgreesOn checker other definition.type.underlying inside where
  type_eq := h.of_field hname hdefinition
  looked _ hlooked := h.looked _
    (hlooked.imp fun _ huse => .inside List.mem_cons_self hname hdefinition huse)

theorem sameWithin (h : AgreesOn checker other container [.field alias? name arguments inside place])
    (hname : name ≠ PlannedField.typename)
    (hdefinition : checker.schema.field? container name = some definition) :
    ∀ argument ∈ definition.arguments,
      checker.schema.SameWithin other argument.type.underlying := by
  intro argument hmem reached hreached
  have huse : Selects checker.schema checker.fragments ⟨container, name, arguments, place⟩ container
      [.field alias? name arguments inside place] := .here rfl List.mem_cons_self
  exact h.looked reached (.argument huse hname hdefinition hmem hreached)

end

end AgreesOn

section

variable {α β : Type} {count : Nat}

/-- Two results are the same, if either of them ends. Only a default that never ends is excepted. -/
abbrev Same (x y : Except Rejection α) : Prop := Ended x ∨ Ended y → x = y

theorem Same.rfl {x : Except Rejection α} : Same x x := fun _ => Eq.refl x

theorem same_bind {x y : Counting α} {f g : α → Counting β} (h : Same (x count) (y count))
    (hnext : ∀ a middle, Same (f a middle) (g a middle)) :
    Same ((x >>= f) count) ((y >>= g) count) := by
  rw [bind_counting, bind_counting]
  exact Respected.same.bind h fun result => hnext result.1 result.2

theorem same_lift {x y : Except Rejection α} (h : Same x y) :
    Same ((liftM x : Counting α) count) ((liftM y : Counting α) count) := by
  rw [lift_counting, lift_counting]
  exact Respected.same.map (·, count) h

end

theorem same_selected {name type : String} {place : Position} {depth count : Nat}
    {inside : List Selection} {definition : TypeDef}
    (h : Same (collectAll checker spread definition (depth + 1) inside count)
      (collectAll { checker with schema := other } spread' definition (depth + 1) inside count)) :
    Same (selected checker spread name place depth inside definition type count)
      (selected { checker with schema := other } spread' name place depth inside definition type
        count) := by
  rw [selected.eq_def, selected.eq_def]
  cases definition.kind with
  | object fields =>
    dsimp only
    split
    · exact .rfl
    · exact same_bind h fun _ _ => .rfl
  | _ => exact .rfl

mutual

/-- The cases are those of `Checker.collect_field`, each step of which finds the same in both
schemas by `AgreesOn`. -/
theorem same_collect (container : TypeDef) (depth count : Nat) (selection : Selection)
    (hagrees : AgreesOn checker other container.name [selection])
    (hspread : ∀ (container : TypeDef) depth name place count,
      AgreesOn checker other container.name [.spread name place] →
        Same (spread container depth name place count)
          (spread' container depth name place count)) :
    Same (collect checker spread container depth selection count)
      (collect { checker with schema := other } spread' container depth selection count) := by
  match selection with
  | .spread fragment place =>
    simp only [collect]
    exact hspread container depth fragment place count hagrees
  | .inline _ place => exact .rfl
  | .field alias? name arguments inside place =>
    rw [collect_field, collect_field]
    refine same_bind .rfl fun _ started => ?_
    simp only [hagrees.field_eq]
    split
    · exact .rfl
    split
    · exact .rfl
    · next hname =>
      cases hdefinition : checker.schema.field? container.name name with
      | none => exact .rfl
      | some definition =>
        simp only [hagrees.of_field hname hdefinition]
        cases htype : checker.schema.type? definition.type.underlying with
        | none => exact .rfl
        | some typeDef =>
          have hinner := hagrees.inner hname hdefinition
          rw [← Schema.name_of_type? htype] at hinner
          refine same_bind (same_selected ?_) fun fields _ => same_bind (same_lift ?_) fun _ _ => .rfl
          · exact same_collectAll typeDef (depth + 1) started inside hinner hspread
          · exact Coercion.coerceAll_of_same (hagrees.sameWithin hname hdefinition)

theorem same_collectAll (container : TypeDef) (depth count : Nat) (selections : List Selection)
    (hagrees : AgreesOn checker other container.name selections)
    (hspread : ∀ (container : TypeDef) depth name place count,
      AgreesOn checker other container.name [.spread name place] →
        Same (spread container depth name place count)
          (spread' container depth name place count)) :
    Same (collectAll checker spread container depth selections count)
      (collectAll { checker with schema := other } spread' container depth selections count) := by
  match selections with
  | [] => exact .rfl
  | selection :: rest =>
    have hfirst : AgreesOn checker other container.name [selection] :=
      hagrees.mono (List.cons_subset_cons _ (List.nil_subset rest))
    have hrest : AgreesOn checker other container.name rest :=
      hagrees.mono (List.subset_cons_self selection rest)
    rw [collectAll, collectAll]
    refine same_bind (same_collect container depth count selection hfirst hspread) fun _ later => ?_
    exact same_bind (same_collectAll container depth later rest hrest hspread) fun _ _ => .rfl

end

/-- The induction is on the steps; inside a fragment the schemas agree by `AgreesOn.fragment`. -/
theorem same_expand (steps : Nat) (path : List String) (container : TypeDef) (depth : Nat)
    (name : String) (place : Position) (count : Nat)
    (hagrees : AgreesOn checker other container.name [.spread name place]) :
    Same (checker.expand steps path container depth name place count)
      (expand { checker with schema := other } steps path container depth name place count) := by
  induction steps generalizing path container depth name place count with
  | zero =>
    rw [expand, expand]
    exact .rfl
  | succ steps ih =>
    rw [expand, expand]
    split
    · exact .rfl
    cases hfragment : checker.fragments.find? (·.name = name) with
    | none => exact .rfl
    | some fragment =>
      dsimp only
      split
      · exact .rfl
      exact same_collectAll container depth count fragment.selections
        (hagrees.fragment hfragment) fun container depth name place count => ih _ container depth name
          place count

theorem same_select (container : TypeDef) (selections : List Selection) (count : Nat)
    (hagrees : AgreesOn checker other container.name selections) :
    Same (checker.select container selections count)
      (select { checker with schema := other } container selections count) := by
  rw [select, select]
  refine same_bind ?_ fun _ _ => .rfl
  exact same_collectAll container 1 count selections hagrees fun container depth name place count =>
    same_expand _ [] container depth name place count

end Checker

/-! ## Documents -/

/-- The operation that is asked for, and the type that it starts from. -/
def Document.StartsFrom (document : Document) (schema : Schema) (operationName? : Option String)
    (operation : Operation) (root : String) : Prop :=
  (∃ name?, document.choose operationName? = .ok (name?, operation)) ∧
    schema.root? operation.kind = some root

namespace Plan

open Checker

/-- Two schemas with the same roots, which agree on all that is looked up for an operation, come to
the same for it. -/
theorem same_ofDocument {schema other : Schema} {document : Document}
    {operationName? : Option String} {supplied : Members Json} {depthLimit : Nat}
    (hroots : ∀ operation, rootOf other operation = rootOf schema operation)
    (hlooked : ∀ operation root name, document.StartsFrom schema operationName? operation root →
      LooksUp schema document.fragments root operation.selections name →
        other.type? name = schema.type? name) :
    Same (ofDocument schema document operationName? supplied depthLimit)
      (ofDocument other document operationName? supplied depthLimit) := by
  cases hchoose : document.choose operationName? with
  | error rejection =>
    simp only [ofDocument, hchoose, bind, Except.bind]
    exact Same.rfl
  | ok chosen =>
    obtain ⟨name?, operation⟩ := chosen
    rw [ofDocument_of_choose hchoose, ofDocument_of_choose hchoose]
    cases hrootOf : rootOf schema operation with
    | error rejection =>
      simp only [ofOperation, hroots operation, hrootOf, bind, Except.bind]
      exact Same.rfl
    | ok root =>
      have hother := (hroots operation).trans hrootOf
      obtain ⟨hroot, htype⟩ := rooted_of_rootOf hrootOf
      rw [ofOperation_of_rootOf hrootOf, ofOperation_of_rootOf hother]
      refine Coercion.Respected.same.bind Same.rfl fun bindings => ?_
      have hagrees : AgreesOn ⟨schema, bindings, document.fragments, depthLimit⟩ other root.name
          operation.selections :=
        ⟨(rooted_of_rootOf hother).2.trans htype.symm,
          fun name => hlooked operation root.name name ⟨⟨name?, hchoose⟩, hroot⟩⟩
      exact Coercion.Respected.same.bind (same_select root operation.selections 0 hagrees)
        fun _ => Same.rfl

/-- What becomes of the types that are looked up while an operation is checked. -/
structure LookupsFound (schema : Schema) (document : Document) (operationName? : Option String)
    (supplied : Members Json) (depthLimit : Nat) : Prop where
  /-- they are defined -/
  found : ∀ operation root name, document.StartsFrom schema operationName? operation root →
    LooksUp schema document.fragments root operation.selections name →
      ∃ definition, schema.type? name = some definition
  /-- no other types make a difference, except for where following defaults for ever is given up -/
  only : ∀ other : Schema, (∀ operation, rootOf other operation = rootOf schema operation) →
    (∀ operation root name, document.StartsFrom schema operationName? operation root →
      LooksUp schema document.fragments root operation.selections name →
        other.type? name = schema.type? name) →
    Coercion.Ended (ofDocument schema document operationName? supplied depthLimit) ∨
        Coercion.Ended (ofDocument other document operationName? supplied depthLimit) →
      ofDocument schema document operationName? supplied depthLimit =
        ofDocument other document operationName? supplied depthLimit
  /-- what is rejected for the type of a field is a field that is selected, and its type is an
  interface, a union or one of input objects -/
  unselectable : ∀ type place,
    ofDocument schema document operationName? supplied depthLimit =
        .error (.unselectableType type place) →
      ∃ operation root use definition typeDef,
        document.StartsFrom schema operationName? operation root ∧
        Selects schema document.fragments use root operation.selections ∧
        use.name ≠ PlannedField.typename ∧ use.place = place ∧
        schema.field? use.container use.name = some definition ∧
        definition.type.underlying = type ∧
        schema.type? type = some typeDef ∧ typeDef.kind.Unselectable
  /-- what is rejected for the type of an argument is a literal for something that values of a declared
  argument are or hold, and its definition does not take the literal -/
  mismatch : ∀ argument expected actual place,
    ofDocument schema document operationName? supplied depthLimit =
        .error (.mismatch argument expected actual place) →
      ∃ operation root use definition declared typeDef,
        document.StartsFrom schema operationName? operation root ∧
        Selects schema document.fragments use root operation.selections ∧
        use.name ≠ PlannedField.typename ∧
        schema.field? use.container use.name = some definition ∧
        declared ∈ definition.arguments ∧
        ReflTransGen schema.Holds declared.type.underlying expected ∧
        schema.type? expected = some typeDef ∧
        ∃ literal : Literal, literal.kind = actual ∧ ¬ Coercion.Takes typeDef literal

/-- In an accepted schema, whatever is asked for, every type that is looked up is defined, and is
the only thing that counts: nothing is rejected for lack of a definition. -/
theorem ofDocument_lookups {definitions : List SchemaDefinition} {schema : Schema}
    (hschema : Schema.ofDefinitions definitions = .ok schema) (document : Document)
    (operationName? : Option String) (supplied : Members Json) (depthLimit : Nat) :
    LookupsFound schema document operationName? supplied depthLimit := by
  have hclosed := Schema.closed_of_ofDefinitions hschema
  constructor
  case found =>
    intro operation root name _ hlooked
    exact Option.isSome_iff_exists.mp (hlooked.defines hclosed)
  case only => exact fun other hroots hlooked => same_ofDocument hroots hlooked
  case unselectable =>
    intro type place h
    obtain ⟨name?, operation, root, bindings, hchoose, hroot, -, use, definition, huse, hname,
      hdefinition, rfl, hplace, hkind⟩ := faults_ofDocument _ _ _ _ _ _ h trivial
    obtain ⟨typeDef, htype⟩ := Option.isSome_iff_exists.mp (hclosed.field hdefinition)
    exact ⟨operation, root, use, definition, typeDef, ⟨⟨name?, hchoose⟩, hroot⟩, huse, hname, hplace,
      hdefinition, rfl, htype, hkind typeDef htype⟩
  case mismatch =>
    intro argument expected actual place h
    obtain ⟨name?, operation, root, bindings, hchoose, hroot, -, use, definition, huse, hname,
      hdefinition, hcoerce⟩ := faults_ofDocument _ _ _ _ _ _ h trivial
    obtain ⟨declared, hdeclared, hreached, literal, hkind, hnot⟩ :=
      Coercion.exists_of_mismatch hcoerce
    obtain ⟨typeDef, htype⟩ := Option.isSome_iff_exists.mp
      (hclosed.reached (hclosed.argument hdefinition declared hdeclared) hreached)
    exact ⟨operation, root, use, definition, declared, typeDef, ⟨⟨name?, hchoose⟩, hroot⟩, huse, hname,
      hdefinition, hdeclared, hreached, htype, literal, hkind, hnot typeDef htype⟩

end Plan

namespace Folders

/-- Whatever folders are looked in, the types that this needs are found. -/
theorem lookups_found :
    Schema.ofDefinitions [.type folder, .type root] = .ok schema ∧
    Plan.LookupsFound schema document none [] 16 :=
  have hschema : Schema.ofDefinitions [.type folder, .type root] = .ok schema := by rfl
  ⟨hschema, Plan.ofDocument_lookups hschema document none [] 16⟩

/-- A truth value is no folder, wherever it is given for one. -/
example : Plan.ofDocument schema
    ⟨.anonymous ⟨.query, [], [.field none "find"
      [⟨"in", .object [("inside", .object [("inside", .boolean true)])], ⟨1, 12⟩⟩] [] ⟨1, 3⟩],
      ⟨1, 1⟩⟩, []⟩ none [] 16 = .error (.mismatch "inside" "Folder" .boolean ⟨1, 12⟩) := by
  with_unfolding_all rfl

end Folders

end FeedGraph
