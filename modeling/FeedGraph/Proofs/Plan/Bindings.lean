import FeedGraph.Plan.OfDocument

/-!
# Bindings: the values that variables get

A variable is given what is supplied for it, else its default (`VariableDefinition.given?`). An
operation has bindings just if all variables that may not be null are given something, and then they
are the pairs of variables and what these are given, each written over the ones before it
(`Operation.bindings_eq_ok_iff`). So only variables that are declared are bound, and those that are
supplied are bound to what is supplied.
-/

namespace FeedGraph

/-- What a variable is given: what is supplied for it, else its default. -/
def VariableDefinition.given? (supplied : Members Json) (definition : VariableDefinition) :
    Option Value :=
  ((Members.get? supplied definition.name).map Value.ofJson).or definition.default?

theorem VariableDefinition.given?_eq_none_iff {supplied : Members Json}
    {definition : VariableDefinition} : definition.given? supplied = none ↔
      Members.get? supplied definition.name = none ∧ definition.default? = none := by
  rw [given?, Option.or_eq_none_iff, Option.map_eq_none_iff]

namespace Operation

variable {supplied : Members Json} {declared rest : List VariableDefinition}
  {definition : VariableDefinition} {start bindings : Members Value} {name : String}

/-- One step of `bindingsFrom` by `given?`: the first variable is bound to what it is given; if that
is nothing, it stays without a value, provided that it may be null. -/
theorem bindingsFrom_cons : bindingsFrom supplied (definition :: rest) start =
    match definition.given? supplied with
    | some value => bindingsFrom supplied rest (Members.set start definition.name value)
    | none =>
      if definition.type.nullable then bindingsFrom supplied rest start
      else .error (.variableNotFound definition.name definition.position) := by
  rw [bindingsFrom, VariableDefinition.given?]
  cases Members.get? supplied definition.name with
  | some json => rfl
  | none => cases definition.default? <;> rfl

/-- Variables, and what they are given; those that are given nothing are left out. -/
def given (supplied : Members Json) (declared : List VariableDefinition) : List (String × Value) :=
  declared.filterMap fun definition => (definition.given? supplied).map (definition.name, ·)

/-- The induction is on the variables, with the bindings so far as `start`. The two sides of the
equivalence are the two ways in which a step can go: nothing is refused, and what is given is
written over what is there. -/
theorem bindingsFrom_eq_ok_iff : bindingsFrom supplied declared start = .ok bindings ↔
    (∀ definition ∈ declared,
      definition.given? supplied = none → definition.type.nullable = true) ∧
    (given supplied declared).foldl (fun members pair => Members.set members pair.1 pair.2) start =
      bindings := by
  induction declared generalizing start with
  | nil => simp [bindingsFrom, given]
  | cons definition rest ih =>
    rw [bindingsFrom_cons, List.forall_mem_cons]
    cases hgiven : definition.given? supplied with
    | some value => simp [given, hgiven, ih]
    | none =>
      cases hnullable : definition.type.nullable with
      | true => simp [given, hgiven, ih]
      | false => simp

/-- The values that the variables of an operation get, without steps: what is given for them, as
members. -/
theorem bindings_eq_ok_iff {operation : Operation} : operation.bindings supplied = .ok bindings ↔
    (∀ definition ∈ operation.declared,
      definition.given? supplied = none → definition.type.nullable = true) ∧
    Members.ofPairs (given supplied operation.declared) = bindings :=
  bindingsFrom_eq_ok_iff

theorem declared_of_has {operation : Operation} (h : operation.bindings supplied = .ok bindings)
    (hname : Members.has bindings name = true) : name ∈ operation.declared.map (·.name) := by
  obtain ⟨-, rfl⟩ := bindings_eq_ok_iff.mp h
  rw [Members.has, Members.get?_isSome_iff, Members.mem_names_ofPairs] at hname
  obtain ⟨pair, hpair, rfl⟩ := List.mem_map.mp hname
  obtain ⟨definition, hdefinition, hgiven⟩ := List.mem_filterMap.mp hpair
  obtain ⟨value, -, rfl⟩ := Option.map_eq_some_iff.mp hgiven
  exact List.mem_map_of_mem hdefinition

/-- What is supplied for a declared variable is its value: it is what `given?` gives for every
declaration of the name, so that it does not matter which of them is written last. -/
theorem get?_bindings {operation : Operation} {json : Json}
    (h : operation.bindings supplied = .ok bindings)
    (hdeclared : name ∈ operation.declared.map (·.name))
    (hsupplied : Members.get? supplied name = some json) :
    Members.get? bindings name = some (.ofJson json) := by
  obtain ⟨-, rfl⟩ := bindings_eq_ok_iff.mp h
  obtain ⟨definition, hmem, rfl⟩ := List.mem_map.mp hdeclared
  have hgiven : ∀ other : VariableDefinition, other.name = definition.name →
      other.given? supplied = some (.ofJson json) := by
    intro other hname
    simp [VariableDefinition.given?, hname, hsupplied]
  -- all that is given to variables of the name is the same, and something is
  have hsame : ∀ pair ∈ given supplied operation.declared, pair.1 = definition.name →
      pair.2 = .ofJson json := by
    intro pair hpair hname
    obtain ⟨other, -, hother⟩ := List.mem_filterMap.mp hpair
    obtain ⟨value, hvalue, rfl⟩ := Option.map_eq_some_iff.mp hother
    exact Option.some.inj (hvalue.symm.trans (hgiven other hname))
  have hsome : (definition.name, .ofJson json) ∈
      (given supplied operation.declared).filter (·.1 = definition.name) := by
    refine List.mem_filter.mpr ⟨List.mem_filterMap.mpr ⟨definition, hmem, ?_⟩, by simp⟩
    rw [hgiven definition rfl, Option.map_some]
  rw [Members.get?_ofPairs]
  obtain ⟨last, hlast⟩ := Option.isSome_iff_exists.mp
    (List.getLast?_isSome.mpr (List.ne_nil_of_mem hsome))
  obtain ⟨hpair, hname⟩ := List.mem_filter.mp (List.mem_of_getLast? hlast)
  rw [hlast, Option.map_some, hsame last hpair (by simpa using hname)]

/-- Variables that may be null, and that are given nothing, stay without values. -/
theorem bindingsFrom_append {extra : List VariableDefinition}
    (hextra : ∀ definition ∈ extra,
      definition.type.nullable = true ∧ definition.given? supplied = none) :
    bindingsFrom supplied (declared ++ extra) start = bindingsFrom supplied declared start := by
  induction declared generalizing start with
  | nil =>
    induction extra with
    | nil => rfl
    | cons definition rest ih =>
      obtain ⟨⟨hnullable, hgiven⟩, hrest⟩ := List.forall_mem_cons.mp hextra
      rw [List.nil_append, bindingsFrom_cons, hgiven]
      simp only [hnullable, if_true]
      exact ih hrest
  | cons definition rest ih => simp only [List.cons_append, bindingsFrom_cons, ih]

end Operation

end FeedGraph
