import FeedGraph.Proofs.Plan.Inlining

/-!
# Visits: the fields that an operation selects

`Selects` says that a field is selected by selections of a type, at any depth and in fragments: it
is one of the fields of the inlined selections, together with the type that it is selected of. What
a document writes for the arguments of a field is looked at there only.

The main statement is `Plan.allPassed_ofDocument`: of an accepted operation every field has passed,
so that it is declared on its type and its arguments have values.
-/

namespace FeedGraph

/-- A field where it is selected. -/
structure FieldUse where
  /-- the type that it is selected of -/
  container : String
  /-- its name -/
  name : String
  /-- what it is given -/
  arguments : List Argument
  /-- where it stands -/
  place : Position

/-- A field is selected by selections of a type, at any depth and in fragments. The constructors go
down through fields, with the type that the schema declares for them, and into fragments. -/
inductive Selects (schema : Schema) (fragments : List Fragment) (use : FieldUse) :
    String → List Selection → Prop where
  /-- it is one of the selections -/
  | here {container : String} {alias? : Option String} {inside selections : List Selection} :
      use.container = container →
      .field alias? use.name use.arguments inside use.place ∈ selections →
        Selects schema fragments use container selections
  /-- it is selected of the value of one -/
  | inside {container : String} {alias? : Option String} {name : String} {arguments : List Argument}
      {inside selections : List Selection} {place : Position} {definition : FieldDef} :
      .field alias? name arguments inside place ∈ selections → name ≠ PlannedField.typename →
      schema.field? container name = some definition →
      Selects schema fragments use definition.type.underlying inside →
        Selects schema fragments use container selections
  /-- it is selected by a fragment that is used -/
  | spread {container : String} {name : String} {place : Position} {fragment : Fragment}
      {selections : List Selection} :
      .spread name place ∈ selections → fragments.find? (·.name = name) = some fragment →
      Selects schema fragments use container fragment.selections →
        Selects schema fragments use container selections

namespace Selects

variable {schema : Schema} {fragments : List Fragment} {use : FieldUse} {container : String}
  {selections : List Selection}

theorem mono {smaller : List Selection} (hsub : smaller ⊆ selections)
    (h : Selects schema fragments use container smaller) :
    Selects schema fragments use container selections := by
  cases h with
  | here hcontainer hmem => exact .here hcontainer (hsub hmem)
  | inside hmem hname hdefinition h => exact .inside (hsub hmem) hname hdefinition h
  | spread hmem hfragment h => exact .spread (hsub hmem) hfragment h

theorem of_cons {selection : Selection} {rest : List Selection}
    (h : Selects schema fragments use container (selection :: rest)) :
    Selects schema fragments use container [selection] ∨
      Selects schema fragments use container rest := by
  cases h with
  | here hcontainer hmem =>
    rcases List.mem_cons.mp hmem with rfl | hmem
    · exact .inl (.here hcontainer List.mem_cons_self)
    · exact .inr (.here hcontainer hmem)
  | inside hmem hname hdefinition h =>
    rcases List.mem_cons.mp hmem with rfl | hmem
    · exact .inl (.inside List.mem_cons_self hname hdefinition h)
    · exact .inr (.inside hmem hname hdefinition h)
  | spread hmem hfragment h =>
    rcases List.mem_cons.mp hmem with rfl | hmem
    · exact .inl (.spread List.mem_cons_self hfragment h)
    · exact .inr (.spread hmem hfragment h)

end Selects

namespace Checker

variable {checker : Checker} {spread : Spreader}

/-- A field has passed: it is the name of its type, without arguments, or it is declared on its type
and its arguments have values. -/
inductive Passed (checker : Checker) (use : FieldUse) : Prop where
  | typename : use.name = PlannedField.typename → use.arguments = [] → Passed checker use
  | declared {definition : FieldDef} {values : Members Value} :
      use.name ≠ PlannedField.typename →
      checker.schema.field? use.container use.name = some definition →
      Coercion.coerceAll checker.schema checker.bindings use.name use.place definition.arguments
        use.arguments = .ok values → Passed checker use

/-- All fields that selections of a type select have passed. It is the accumulated result of the
checks, kept for fields that merging has dropped too. -/
def AllPassed (checker : Checker) (container : String) (selections : List Selection) : Prop :=
  ∀ use, Selects checker.schema checker.fragments use container selections → Passed checker use

theorem allPassed_nil (container : String) : AllPassed checker container [] := by
  intro use h
  cases h with
  | here _ hmem => cases hmem
  | inside hmem => cases hmem
  | spread hmem => cases hmem

theorem AllPassed.fragment {container name : String} {place : Position} {fragment : Fragment}
    (hfragment : checker.fragments.find? (·.name = name) = some fragment)
    (h : AllPassed checker container fragment.selections) :
    AllPassed checker container [.spread name place] := by
  intro use hselects
  cases hselects with
  | here _ hmem => cases List.mem_singleton.mp hmem
  | inside hmem => cases List.mem_singleton.mp hmem
  | spread hmem hfound hselects =>
    cases List.mem_singleton.mp hmem
    obtain rfl := Option.some.inj (hfound.symm.trans hfragment)
    exact h use hselects

theorem AllPassed.field {container name : String} {alias? : Option String}
    {arguments : List Argument} {selections : List Selection} {place : Position}
    (hpassed : Passed checker ⟨container, name, arguments, place⟩)
    (hbelow : name ≠ PlannedField.typename → ∀ definition,
      checker.schema.field? container name = some definition →
        AllPassed checker definition.type.underlying selections) :
    AllPassed checker container [.field alias? name arguments selections place] := by
  intro use hselects
  cases hselects with
  | here hcontainer hmem =>
    obtain ⟨_, _, _, _⟩ := use
    cases List.mem_singleton.mp hmem
    obtain rfl := hcontainer
    exact hpassed
  | inside hmem hname hdefinition hselects =>
    cases List.mem_singleton.mp hmem
    exact hbelow hname _ hdefinition use hselects
  | spread hmem => cases List.mem_singleton.mp hmem

mutual

/-- A field has passed by `ok_of_collect_field`, and so has what is selected of it; the use of a
fragment is the hypothesis `hspread`. -/
theorem allPassed_collect
    (hspread : ∀ container depth name place count result,
      spread container depth name place count = .ok result →
        AllPassed checker container.name [.spread name place])
    {container : TypeDef} {depth count : Nat} {result : List PlannedField × Nat}
    (selection : Selection)
    (h : collect checker spread container depth selection count = .ok result) :
    AllPassed checker container.name [selection] := by
  match selection with
  | .spread fragment place => exact hspread _ _ _ _ _ _ h
  | .inline _ _ => cases h
  | .field alias? name arguments selections place =>
    obtain ⟨started, -, -, ⟨hname, hnone, -, -⟩ | ⟨hname, definition, typeDef, fields, values,
      hdefinition, htype, hfields, hvalues, -⟩⟩ := ok_of_collect_field h
    · exact .field (.typename hname hnone) fun hne => absurd hname hne
    · refine .field (.declared hname hdefinition hvalues) fun _ declared hdeclared => ?_
      obtain rfl := Option.some.inj (hdefinition.symm.trans hdeclared)
      rcases ok_of_selected hfields with ⟨-, rfl, -⟩ | ⟨-, -, -, collected, hcollected, -⟩
      · exact allPassed_nil _
      · have hbelow := allPassed_collectAll hspread selections hcollected
        rwa [Schema.name_of_type? htype] at hbelow

theorem allPassed_collectAll
    (hspread : ∀ container depth name place count result,
      spread container depth name place count = .ok result →
        AllPassed checker container.name [.spread name place])
    {container : TypeDef} {depth count : Nat} {result : List PlannedField × Nat}
    (selections : List Selection)
    (h : collectAll checker spread container depth selections count = .ok result) :
    AllPassed checker container.name selections := by
  match selections with
  | [] => exact allPassed_nil _
  | selection :: rest =>
    rw [collectAll] at h
    obtain ⟨fields, middle, hfields, h⟩ := ok_of_bind_counting h
    obtain ⟨others, last, hothers, -⟩ := ok_of_bind_counting h
    intro use hselects
    rcases hselects.of_cons with hselects | hselects
    · exact allPassed_collect hspread selection hfields use hselects
    · exact allPassed_collectAll hspread rest hothers use hselects

end

/-- The induction is on the steps, with `hspread` for the fragments that are used inside. -/
theorem allPassed_expand (steps : Nat) (path : List String) (container : TypeDef) (depth : Nat)
    (name : String) (place : Position) (count : Nat) (result : List PlannedField × Nat)
    (h : checker.expand steps path container depth name place count = .ok result) :
    AllPassed checker container.name [.spread name place] := by
  induction steps generalizing path container depth name place count result with
  | zero =>
    obtain ⟨_, rest, -, -, -, hsteps, -⟩ := ok_of_expand h
    cases hsteps
  | succ steps ih =>
    obtain ⟨fragment, rest, hfragment, -, -, hsteps, h⟩ := ok_of_expand h
    obtain rfl := Nat.succ.inj hsteps
    exact .fragment hfragment
      (allPassed_collectAll (fun _ _ _ _ _ _ h => ih _ _ _ _ _ _ _ h) fragment.selections h)

end Checker

/-- Of an accepted operation, every field has passed with the values that variables have got. So
what is shown for `coerceAll` is known of every field that is written in the document, and not of
planned fields only. -/
theorem Plan.allPassed_ofDocument {schema : Schema} {document : Document}
    {operationName? : Option String} {supplied : Members Json} {depthLimit : Nat} {plan : Plan}
    (h : ofDocument schema document operationName? supplied depthLimit = .ok plan) :
    ∃ name? operation root bindings,
      document.choose operationName? = .ok (name?, operation) ∧
      schema.root? operation.kind = some root ∧ operation.bindings supplied = .ok bindings ∧
      Checker.AllPassed ⟨schema, bindings, document.fragments, depthLimit⟩ root
        operation.selections := by
  obtain ⟨name?, operation, root, bindings, fields, count, hchoose, hroot, hbindings, hselect, -⟩ :=
    ok_of_ofDocument h
  refine ⟨name?, operation, root.name, bindings, hchoose, root?_of_rootOf hroot, hbindings, ?_⟩
  obtain ⟨collected, middle, hcollected, -⟩ := Checker.ok_of_bind_counting hselect
  exact Checker.allPassed_collectAll (Checker.allPassed_expand _ _) _ hcollected

end FeedGraph
