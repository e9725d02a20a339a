import FeedGraph.Proofs.Plan.Merging

/-!
# Collection: where the fields of a selection come from

`Collected` describes the fields that a selection can contribute to what is selected of a type, with
one rule for each kind of field and no mention of counts, depths or paths of fragments. The main
statement is `Checker.collected_select`: all fields that a selection contributes are of that
description, be they written in it or in the fragments it uses, and if no fragment is empty,
something is contributed.

`Checker.selected` is what a field of a declared type selects, cut out of `Checker.collect`, and
`Checker.collect_field` puts it back.
-/

namespace FeedGraph

namespace Schema

/-- Whether a type is one of objects. -/
def IsObject (schema : Schema) (name : String) : Prop :=
  ∃ definition fields, schema.type? name = some definition ∧ definition.kind = .object fields

theorem name_of_type? {schema : Schema} {name : String} {definition : TypeDef}
    (h : schema.type? name = some definition) : definition.name = name := by
  simpa using List.find?_some h

theorem isLeaf_iff {schema : Schema} {name : String} {definition : TypeDef}
    (h : schema.type? name = some definition) :
    schema.isLeaf name = true ↔
      definition.kind = .scalar ∨ ∃ values, definition.kind = .enumeration values := by
  obtain ⟨n, d, kind⟩ := definition
  cases kind <;> simp [isLeaf, h]

theorem IsObject.not_isLeaf {schema : Schema} {name : String} (h : schema.IsObject name) :
    schema.isLeaf name = false := by
  obtain ⟨definition, fields, ht, hk⟩ := h
  rw [Bool.eq_false_iff, ne_eq, isLeaf_iff ht, hk]
  simp

end Schema

/-- No fragment is empty. The reader of documents makes no empty ones, as the grammar asks for a
selection between the braces, but as a `Document` can be built with one, this is a hypothesis where
it is needed. -/
def Filled (fragments : List Fragment) : Prop :=
  ∀ fragment ∈ fragments, fragment.selections ≠ []

namespace Checker

/-- The fields that a selection of a type can contribute. The constructors follow the kinds of
fields: the name of the type, a field with values that are leaves, and one with values that are
objects, below which there is something merged of `Collected` fields. -/
inductive Collected (checker : Checker) : String → PlannedField → Prop where
  /-- the name of the type -/
  | typename {container : String} {alias? : Option String} {place : Position} :
      Collected checker container
        ⟨alias?, PlannedField.typename, .named "String" false, [], [], place⟩
  /-- a declared field whose values have no parts -/
  | leaf {container name : String} {alias? : Option String} {definition : FieldDef}
      {arguments : List Argument} {values : Members Value} {place : Position} :
      name ≠ PlannedField.typename → checker.schema.field? container name = some definition →
      Coercion.coerceAll checker.schema checker.bindings name place definition.arguments arguments =
        .ok values →
      checker.schema.isLeaf definition.type.underlying = true →
        Collected checker container ⟨alias?, name, definition.type, values, [], place⟩
  /-- a declared field whose values are objects, with what is selected of them -/
  | object {container name : String} {alias? : Option String} {definition : FieldDef}
      {arguments : List Argument} {values : Members Value} {place : Position}
      {collected fields : List PlannedField} :
      name ≠ PlannedField.typename → checker.schema.field? container name = some definition →
      Coercion.coerceAll checker.schema checker.bindings name place definition.arguments arguments =
        .ok values →
      checker.schema.IsObject definition.type.underlying →
      (∀ field ∈ collected, Collected checker definition.type.underlying field) →
      (Filled checker.fragments → collected ≠ []) →
      PlannedField.merge collected = .ok fields →
        Collected checker container ⟨alias?, name, definition.type, values, fields, place⟩

/-! ## What a field selects -/

variable {checker : Checker} {spread : Spreader}

/-- What is selected of the values of a field, merged: nothing of a leaf, something of an object.
This is the part of `Checker.collect` that goes down by one level, as a function of its own. -/
def selected (checker : Checker) (spread : Spreader) (name : String) (place : Position)
    (depth : Nat) (selections : List Selection) (definition : TypeDef) (type : String) :
    Counting (List PlannedField) :=
  match definition.kind with
  | .scalar | .enumeration _ =>
    if selections.isEmpty then pure [] else throw (.selectionOnLeaf name place)
  | .object _ =>
    if selections.isEmpty then throw (.missingSelection name type place)
    else do
      let collected ← collectAll checker spread definition (depth + 1) selections
      PlannedField.merge collected
  | _ => throw (.unselectableType type place)

/-- `Checker.collect` for a field, with `selected` in the place of the match that it stands for. The
order of the steps is what decides which rejection comes first: count, depth, name, what is
selected, arguments. -/
theorem collect_field (container : TypeDef) (depth : Nat) (alias? : Option String) (name : String)
    (arguments : List Argument) (selections : List Selection) (place : Position) :
    collect checker spread container depth (.field alias? name arguments selections place) = do
      countField place
      if checker.depthLimit < depth then throw (.tooDeep place)
      else if name = PlannedField.typename then
        return [← typenameField alias? arguments selections place]
      else
        match checker.schema.field? container.name name with
        | none => throw (.unknownField name container.name place)
        | some definition =>
          match checker.schema.type? definition.type.underlying with
          | none => throw (.unselectableType definition.type.underlying place)
          | some typeDef => do
            let fields ← selected checker spread name place depth selections typeDef
              definition.type.underlying
            let values ← Coercion.coerceAll checker.schema checker.bindings name place
              definition.arguments arguments
            return [⟨alias?, name, definition.type, values, fields, place⟩] := by
  rw [collect]
  congr 1
  funext _
  split
  · rfl
  · split
    · rfl
    · cases checker.schema.field? container.name name with
      | none => rfl
      | some definition =>
        cases ht : checker.schema.type? definition.type.underlying with
        | none => simp only [ht]
        | some typeDef =>
          cases hk : typeDef.kind <;> cases selections <;> simp [ht, hk, selected]

theorem ok_of_selected {name type : String} {place : Position} {depth count : Nat}
    {selections : List Selection} {definition : TypeDef} {result : List PlannedField × Nat}
    (h : selected checker spread name place depth selections definition type count = .ok result) :
    ((definition.kind = .scalar ∨ ∃ values, definition.kind = .enumeration values) ∧
        selections = [] ∧ result = ([], count)) ∨
      ∃ fields, definition.kind = .object fields ∧ selections ≠ [] ∧
        ∃ collected, collectAll checker spread definition (depth + 1) selections count =
            .ok (collected, result.2) ∧
          PlannedField.merge collected = .ok result.1 := by
  rw [selected.eq_def] at h
  cases hk : definition.kind with
  | scalar =>
    cases selections with
    | nil =>
      simp only [hk] at h
      exact Or.inl ⟨Or.inl rfl, rfl, (Except.ok.inj h).symm⟩
    | cons => simp [hk] at h
  | enumeration values =>
    cases selections with
    | nil =>
      simp only [hk] at h
      exact Or.inl ⟨Or.inr ⟨values, rfl⟩, rfl, (Except.ok.inj h).symm⟩
    | cons => simp [hk] at h
  | object fields =>
    cases selections with
    | nil => simp [hk] at h
    | cons selection rest =>
      simp only [hk, List.isEmpty_cons, Bool.false_eq_true, if_false] at h
      obtain ⟨collected, middle, hcollected, h⟩ := ok_of_bind_counting h
      obtain ⟨hmerge, rfl⟩ := ok_of_lift h
      exact Or.inr ⟨fields, rfl, List.cons_ne_nil _ _, collected, hcollected, hmerge⟩
  | _ => simp [hk] at h

theorem ok_of_typename {alias? : Option String} {arguments : List Argument}
    {selections : List Selection} {place : Position} {field : PlannedField}
    (h : typenameField alias? arguments selections place = .ok field) :
    arguments = [] ∧ selections = [] ∧
      field = ⟨alias?, PlannedField.typename, .named "String" false, [], [], place⟩ := by
  rw [typenameField] at h
  split at h
  · cases h
  · next harguments =>
    split at h
    · cases h
    · next hselections =>
      exact ⟨by simpa using harguments, by simpa using hselections, (Except.ok.inj h).symm⟩

/-- What is known of a field that has passed: it is counted and not too deep, and is either the name
of the type, or declared, with `selected` and `coerceAll` having passed too. -/
theorem ok_of_collect_field {container : TypeDef} {depth count : Nat} {alias? : Option String}
    {name : String} {arguments : List Argument} {selections : List Selection} {place : Position}
    {result : List PlannedField × Nat}
    (h : collect checker spread container depth (.field alias? name arguments selections place)
      count = .ok result) :
    ∃ started, countField place count = .ok ((), started) ∧ depth ≤ checker.depthLimit ∧
      (name = PlannedField.typename ∧ arguments = [] ∧ selections = [] ∧
          result = ([⟨alias?, name, .named "String" false, [], [], place⟩], started) ∨
        name ≠ PlannedField.typename ∧ ∃ definition typeDef fields values,
          checker.schema.field? container.name name = some definition ∧
          checker.schema.type? definition.type.underlying = some typeDef ∧
          selected checker spread name place depth selections typeDef definition.type.underlying
            started = .ok (fields, result.2) ∧
          Coercion.coerceAll checker.schema checker.bindings name place definition.arguments
            arguments = .ok values ∧
          result.1 = [⟨alias?, name, definition.type, values, fields, place⟩]) := by
  rw [collect_field] at h
  obtain ⟨_, started, hstarted, h⟩ := ok_of_bind_counting h
  split at h
  · cases h
  next hdepth =>
  refine ⟨started, hstarted, Nat.le_of_not_lt hdepth, ?_⟩
  split at h
  · next hname =>
    obtain ⟨field, middle, hfield, h⟩ := ok_of_bind_counting h
    obtain ⟨hfield, hmiddle⟩ := ok_of_lift hfield
    obtain rfl := Except.ok.inj h
    obtain ⟨harguments, hselections, rfl⟩ := ok_of_typename hfield
    exact .inl ⟨hname, harguments, hselections, by rw [hname, ← hmiddle]⟩
  · next hname =>
    cases hdefinition : checker.schema.field? container.name name with
    | none => simp [hdefinition] at h
    | some definition =>
      cases htype : checker.schema.type? definition.type.underlying with
      | none => simp [hdefinition, htype] at h
      | some typeDef =>
        simp only [hdefinition, htype] at h
        obtain ⟨fields, middle, hfields, h⟩ := ok_of_bind_counting h
        obtain ⟨values, last, hvalues, h⟩ := ok_of_bind_counting h
        obtain ⟨hcoerced, hlast⟩ := ok_of_lift hvalues
        obtain rfl := Except.ok.inj h
        obtain rfl : last = middle := hlast
        exact .inr ⟨hname, definition, typeDef, fields, values, rfl, htype, hfields, hcoerced, rfl⟩

/-! ## What selections contribute -/

/-- What the use of a fragment is to contribute: fields of the right description, and if no fragment
is empty, at least one. -/
def Contributes (checker : Checker) (container : String) (fields : List PlannedField) : Prop :=
  (∀ field ∈ fields, Collected checker container field) ∧ (Filled checker.fragments → fields ≠ [])

mutual

/-- The cases are those of `Selection`. The use of a fragment is the hypothesis `hspread`, so that
no bound on nesting is involved here. -/
theorem contributes_collect
    (hspread : ∀ container depth name place count result,
      spread container depth name place count = .ok result →
        Contributes checker container.name result.1)
    {container : TypeDef} {depth count : Nat} {result : List PlannedField × Nat}
    (selection : Selection)
    (h : collect checker spread container depth selection count = .ok result) :
    Contributes checker container.name result.1 := by
  match selection with
  | .spread fragment place => exact hspread _ _ _ _ _ _ h
  | .inline _ _ => cases h
  | .field alias? name arguments selections place =>
    obtain ⟨started, -, -, ⟨rfl, -, -, rfl⟩ | ⟨hname, definition, typeDef, fields, values,
      hdefinition, htype, hfields, hvalues, hresult⟩⟩ := ok_of_collect_field h
    · refine ⟨fun other hmem => ?_, fun _ => List.cons_ne_nil _ _⟩
      rw [List.mem_singleton.mp hmem]
      exact .typename
    · rw [hresult]
      refine ⟨fun other hmem => ?_, fun _ => List.cons_ne_nil _ _⟩
      rw [List.mem_singleton.mp hmem]
      rcases ok_of_selected hfields with ⟨hleaf, -, hnil⟩ |
        ⟨declared, hobject, hne, collected, hcollected, hmerge⟩
      · obtain ⟨rfl, -⟩ := Prod.mk.inj hnil
        exact .leaf hname hdefinition hvalues ((Schema.isLeaf_iff htype).mpr hleaf)
      · obtain ⟨hall, hsome⟩ := contributes_collectAll hspread selections hcollected
        rw [Schema.name_of_type? htype] at hall
        exact .object hname hdefinition hvalues ⟨typeDef, declared, htype, hobject⟩ hall
          (fun hfilled => hsome hfilled hne) hmerge

theorem contributes_collectAll
    (hspread : ∀ container depth name place count result,
      spread container depth name place count = .ok result →
        Contributes checker container.name result.1)
    {container : TypeDef} {depth count : Nat} {result : List PlannedField × Nat}
    (selections : List Selection)
    (h : collectAll checker spread container depth selections count = .ok result) :
    (∀ field ∈ result.1, Collected checker container.name field) ∧
      (Filled checker.fragments → selections ≠ [] → result.1 ≠ []) := by
  match selections with
  | [] =>
    rw [collectAll] at h
    obtain rfl := Except.ok.inj h
    exact ⟨fun _ hmem => absurd hmem List.not_mem_nil, fun _ hne => absurd rfl hne⟩
  | selection :: rest =>
    rw [collectAll] at h
    obtain ⟨fields, middle, hfields, h⟩ := ok_of_bind_counting h
    obtain ⟨others, last, hothers, h⟩ := ok_of_bind_counting h
    obtain rfl := Except.ok.inj h
    obtain ⟨hall, hsome⟩ := contributes_collect hspread selection hfields
    obtain ⟨hall', -⟩ := contributes_collectAll hspread rest hothers
    refine ⟨fun field hmem => ?_, fun hfilled _ => ?_⟩
    · rcases List.mem_append.mp hmem with hmem | hmem
      · exact hall field hmem
      · exact hall' field hmem
    · exact List.append_ne_nil_of_left_ne_nil (hsome hfilled) _

end

/-- Of a fragment that is used, what it selects is collected, with one step less to go and one
fragment more to be inside of. -/
theorem ok_of_expand {steps depth count : Nat} {path : List String} {container : TypeDef}
    {name : String} {place : Position} {result : List PlannedField × Nat}
    (h : checker.expand steps path container depth name place count = .ok result) :
    ∃ fragment rest, checker.fragments.find? (·.name = name) = some fragment ∧
      fragment.on = container.name ∧ name ∉ path ∧ steps = rest + 1 ∧
      collectAll checker (checker.expand rest (path ++ [name])) container depth
        fragment.selections count = .ok result := by
  rw [expand.eq_def] at h
  by_cases hpath : path.contains name = true
  · simp only [hpath, if_true] at h
    cases h
  · cases hfragment : checker.fragments.find? (·.name = name) with
    | none =>
      simp only [hpath, hfragment] at h
      cases h
    | some fragment =>
      by_cases hon : fragment.on = container.name
      · cases steps with
        | zero =>
          simp only [hpath, hfragment, hon, ne_eq, not_true_eq_false, if_false] at h
          cases h
        | succ rest =>
          simp only [hpath, hfragment, hon, ne_eq, not_true_eq_false, if_false] at h
          exact ⟨fragment, rest, rfl, hon, by simpa using hpath, rfl, h⟩
      · simp only [hpath, hfragment, ne_eq, hon, not_false_eq_true, if_true] at h
        cases h

/-- The induction is on `steps`, through `contributes_collectAll` with the smaller number for the
fragments that are used inside. -/
theorem contributes_expand (steps : Nat) (path : List String) (container : TypeDef)
    (depth : Nat) (name : String) (place : Position) (count : Nat)
    (result : List PlannedField × Nat)
    (h : checker.expand steps path container depth name place count = .ok result) :
    Contributes checker container.name result.1 := by
  induction steps generalizing path container depth name place count result with
  | zero =>
    obtain ⟨_, rest, -, -, -, hsteps, -⟩ := ok_of_expand h
    cases hsteps
  | succ steps ih =>
    obtain ⟨fragment, rest, hfragment, -, -, hsteps, h⟩ := ok_of_expand h
    obtain rfl := Nat.succ.inj hsteps
    obtain ⟨hall, hsome⟩ := contributes_collectAll
      (fun _ _ _ _ _ _ h => ih _ _ _ _ _ _ _ h) fragment.selections h
    exact ⟨hall, fun hfilled => hsome hfilled
      (hfilled fragment (List.mem_of_find?_eq_some hfragment))⟩

/-- What is selected of the root: fields of the description, merged. From here on nothing has to be
known of how selections are gone through. -/
theorem collected_select {container : TypeDef} {selections : List Selection} {count : Nat}
    {result : List PlannedField × Nat}
    (h : checker.select container selections count = .ok result) :
    ∃ collected, (∀ field ∈ collected, Collected checker container.name field) ∧
      PlannedField.merge collected = .ok result.1 := by
  rw [select] at h
  obtain ⟨collected, middle, hcollected, h⟩ := ok_of_bind_counting h
  obtain ⟨hall, -⟩ := contributes_collectAll
    (fun _ _ _ _ _ _ h => contributes_expand _ _ _ _ _ _ _ _ h) selections hcollected
  exact ⟨collected, hall, (ok_of_lift h).1⟩

end Checker

end FeedGraph
