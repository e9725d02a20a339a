import FeedGraph.Proofs.Plan.Defaults
import FeedGraph.Proofs.Plan.Limits
import FeedGraph.Proofs.Plan.Normalization

/-!
# Sources: where planned fields come from

With its fragments written out, an operation selects fields only. `Checker.Planned` says what a
field that is selected is planned as: under the name it has in the answer, and with its arguments as
values. The main statement is `Plan.exists_sources`: what is planned for the root of an accepted
operation are the fields that are selected of it, in order, and of the fields with one name in the
answer the first.
-/

namespace FeedGraph

namespace Selection

/-- The name under which the value of a field is answered. -/
def output? : Selection → Option String
  | .field alias? name _ _ _ => some (alias?.getD name)
  | _ => none

/-- For each name in the answer, the first field that has it, in the order in which the names come
up. -/
def leading (selections : List Selection) : List Selection :=
  (selections.filterMap output?).eraseDups.filterMap fun name =>
    selections.find? (·.output? = some name)

end Selection

namespace Checker

/-- What a field that is selected of a type is planned as, whatever is selected of its value. -/
inductive Planned (checker : Checker) (container : String) : Selection → PlannedField → Prop where
  /-- the name of the type -/
  | typename {alias? : Option String} {arguments : List Argument} {selections : List Selection}
      {fields : List PlannedField} {place : Position} :
      Planned checker container (.field alias? PlannedField.typename arguments selections place)
        ⟨alias?, PlannedField.typename, .named "String" false, [], fields, place⟩
  /-- a declared field, with the values of its arguments -/
  | declared {alias? : Option String} {name : String} {definition : FieldDef}
      {arguments : List Argument} {selections : List Selection} {values : Members Value}
      {fields : List PlannedField} {place : Position} :
      name ≠ PlannedField.typename → checker.schema.field? container name = some definition →
      Coercion.coerceAll checker.schema checker.bindings name place definition.arguments arguments =
        .ok values →
        Planned checker container (.field alias? name arguments selections place)
          ⟨alias?, name, definition.type, values, fields, place⟩

variable {checker : Checker} {container : String} {spread : Spreader}

namespace Planned

variable {selection : Selection} {selections : List Selection} {field first : PlannedField}
  {fields : List PlannedField}

theorem output?_eq (h : Planned checker container selection field) :
    selection.output? = some field.output := by
  cases h <;> rfl

theorem name_eq {alias? : Option String} {name : String} {arguments : List Argument}
    {place : Position}
    (h : Planned checker container (.field alias? name arguments selections place) field) :
    field.name = name := by
  cases h <;> rfl

/-- The arguments of a declared field are those that are written. -/
theorem exists_definition {alias? : Option String} {name : String} {arguments : List Argument}
    {place : Position}
    (h : Planned checker container (.field alias? name arguments selections place) field)
    (hname : name ≠ PlannedField.typename) :
    ∃ definition, checker.schema.field? container name = some definition ∧
      Coercion.coerceAll checker.schema checker.bindings name place definition.arguments arguments =
        .ok field.arguments := by
  cases h with
  | typename => exact absurd rfl hname
  | declared _ hdefinition hvalues => exact ⟨_, hdefinition, hvalues⟩

/-- What is selected of the value does not matter. -/
theorem of_head (h : Planned checker container selection first) (hhead : first.head = field.head) :
    Planned checker container selection field := by
  obtain ⟨alias?, name, type, arguments, below, place⟩ := field
  simp only [PlannedField.head, PlannedField.mk.injEq] at hhead
  cases h with
  | typename =>
    obtain ⟨rfl, rfl, rfl, rfl, -, rfl⟩ := hhead
    exact .typename
  | declared hname hdefinition hvalues =>
    obtain ⟨rfl, rfl, rfl, rfl, -, rfl⟩ := hhead
    exact .declared hname hdefinition hvalues

theorem filterMap_output? (h : List.Forall₂ (Planned checker container) selections fields) :
    selections.filterMap Selection.output? = fields.map PlannedField.output := by
  induction h with
  | nil => rfl
  | cons hfirst _ ih => rw [List.filterMap_cons_some hfirst.output?_eq, ih, List.map_cons]

theorem exists_find? (h : List.Forall₂ (Planned checker container) selections fields)
    {name : String} (hfirst : fields.find? (·.output = name) = some first) :
    ∃ selection, selections.find? (·.output? = some name) = some selection ∧
      Planned checker container selection first := by
  induction h with
  | nil => cases hfirst
  | @cons selection field _ _ hplanned _ ih =>
    by_cases hname : field.output = name
    · rw [List.find?_cons_of_pos (by simpa using hname)] at hfirst
      obtain rfl := Option.some.inj hfirst
      refine ⟨selection, List.find?_cons_of_pos ?_, hplanned⟩
      simpa [hplanned.output?_eq] using hname
    · rw [List.find?_cons_of_neg (by simpa using hname)] at hfirst
      rw [List.find?_cons_of_neg (by simpa [hplanned.output?_eq] using hname)]
      exact ih hfirst

/-- Merging keeps the first field of each name, by `PlannedField.find?_of_merge`, in the order in
which the names come up; and so does `leading` with selections. -/
theorem leading_of_merge (h : List.Forall₂ (Planned checker container) selections fields)
    {merged : List PlannedField} (hmerge : PlannedField.merge fields = .ok merged) :
    List.Forall₂ (Planned checker container) (Selection.leading selections) merged := by
  have hnames : (selections.filterMap Selection.output?).eraseDups = merged.map (·.output) := by
    have horder := (PlannedField.normalizes_merge hmerge).order []
    rw [PlannedField.siblings_root, PlannedField.siblings_root] at horder
    rw [filterMap_output? h, horder]
  have hfirst : ∀ field ∈ merged, ∃ selection,
      selections.find? (·.output? = some field.output) = some selection ∧
        Planned checker container selection field := by
    intro field hmem
    obtain ⟨first, hfind, hhead⟩ :=
      Option.map_eq_some_iff.mp (PlannedField.find?_of_merge hmerge hmem)
    obtain ⟨selection, hselection, hplanned⟩ := exists_find? h hfind
    exact ⟨selection, hselection, hplanned.of_head hhead⟩
  rw [Selection.leading, hnames]
  clear hnames hmerge
  induction merged with
  | nil => exact .nil
  | cons field rest ih =>
    obtain ⟨⟨selection, hselection, hplanned⟩, hrest⟩ := List.forall_mem_cons.mp hfirst
    simp only [List.map_cons, List.filterMap_cons, hselection]
    exact .cons hplanned (ih hrest)

end Planned

/-- Selections can be written out, and each field of the written-out form is planned as one of the
fields. -/
def Written (checker : Checker) (container : String) (selections : List Selection)
    (fields : List PlannedField) : Prop :=
  ∃ inlined, Inlined checker.fragments selections inlined ∧
    List.Forall₂ (Planned checker container) inlined fields

theorem Written.append {selections others : List Selection} {fields rest : List PlannedField}
    (h : Written checker container selections fields) (h' : Written checker container others rest) :
    Written checker container (selections ++ others) (fields ++ rest) := by
  obtain ⟨inlined, hinlined, hplanned⟩ := h
  obtain ⟨inlined', hinlined', hplanned'⟩ := h'
  exact ⟨inlined ++ inlined', hinlined.append hinlined', List.rel_append hplanned hplanned'⟩

mutual

/-- A field is planned as itself, and what is selected of it is written out with it; the use of a
fragment is the hypothesis `hspread`. -/
theorem written_collect
    (hspread : ∀ container depth name place count result,
      spread container depth name place count = .ok result →
        Written checker container.name [.spread name place] result.1)
    {container : TypeDef} {depth count : Nat} {result : List PlannedField × Nat}
    (selection : Selection)
    (h : collect checker spread container depth selection count = .ok result) :
    Written checker container.name [selection] result.1 := by
  match selection with
  | .spread fragment place => exact hspread _ _ _ _ _ _ h
  | .inline _ _ => cases h
  | .field alias? name arguments selections place =>
    obtain ⟨started, -, -, ⟨rfl, -, rfl, rfl⟩ | ⟨hname, definition, typeDef, fields, values,
      hdefinition, -, hfields, hvalues, hresult⟩⟩ := ok_of_collect_field h
    · exact ⟨_, .field .nil .nil, .cons .typename .nil⟩
    · rw [hresult]
      rcases ok_of_selected hfields with ⟨-, rfl, -⟩ | ⟨-, -, -, collected, hcollected, -⟩
      · exact ⟨_, .field .nil .nil, .cons (.declared hname hdefinition hvalues) .nil⟩
      · obtain ⟨inlined, hinlined, -⟩ := written_collectAll hspread selections hcollected
        exact ⟨_, .field hinlined .nil, .cons (.declared hname hdefinition hvalues) .nil⟩

theorem written_collectAll
    (hspread : ∀ container depth name place count result,
      spread container depth name place count = .ok result →
        Written checker container.name [.spread name place] result.1)
    {container : TypeDef} {depth count : Nat} {result : List PlannedField × Nat}
    (selections : List Selection)
    (h : collectAll checker spread container depth selections count = .ok result) :
    Written checker container.name selections result.1 := by
  match selections with
  | [] =>
    rw [collectAll] at h
    obtain rfl := Except.ok.inj h
    exact ⟨[], .nil, .nil⟩
  | selection :: rest =>
    rw [collectAll] at h
    obtain ⟨fields, middle, hfields, h⟩ := ok_of_bind_counting h
    obtain ⟨others, last, hothers, h⟩ := ok_of_bind_counting h
    obtain rfl := Except.ok.inj h
    exact (written_collect hspread selection hfields).append
      (written_collectAll hspread rest hothers)

end

/-- The induction is on the steps. For a fragment that is entered, the written-out form is that of
what it selects. -/
theorem written_expand (steps : Nat) (path : List String) (container : TypeDef) (depth : Nat)
    (name : String) (place : Position) (count : Nat) (result : List PlannedField × Nat)
    (h : checker.expand steps path container depth name place count = .ok result) :
    Written checker container.name [.spread name place] result.1 := by
  induction steps generalizing path container depth name place count result with
  | zero =>
    obtain ⟨_, rest, -, -, -, hsteps, -⟩ := ok_of_expand h
    cases hsteps
  | succ steps ih =>
    obtain ⟨fragment, rest, hfragment, -, -, hsteps, h⟩ := ok_of_expand h
    obtain rfl := Nat.succ.inj hsteps
    obtain ⟨inlined, hinlined, hplanned⟩ := written_collectAll
      (fun _ _ _ _ _ _ h => ih _ _ _ _ _ _ _ h) fragment.selections h
    exact ⟨inlined, .fragment hfragment hinlined, hplanned⟩

/-- What is selected of the root, written out, and what it is planned as. -/
theorem exists_inlined_of_select {container : TypeDef} {selections : List Selection} {count : Nat}
    {result : List PlannedField × Nat}
    (h : checker.select container selections count = .ok result) :
    ∃ inlined, Inlined checker.fragments selections inlined ∧
      List.Forall₂ (Planned checker container.name) (Selection.leading inlined) result.1 := by
  rw [select] at h
  obtain ⟨collected, middle, hcollected, h⟩ := ok_of_bind_counting h
  obtain ⟨inlined, hinlined, hplanned⟩ :=
    written_collectAll (written_expand _ _) selections hcollected
  exact ⟨inlined, hinlined, Planned.leading_of_merge hplanned (ok_of_lift h).1⟩

end Checker

/-- An accepted operation can be written out. Its fields are planned for those of the root, one for
each name in the answer, with the values that variables have got. -/
theorem Plan.exists_sources {schema : Schema} {document : Document}
    {operationName? : Option String} {supplied : Members Json} {depthLimit : Nat} {plan : Plan}
    (h : ofDocument schema document operationName? supplied depthLimit = .ok plan) :
    ∃ name? operation root bindings inlined,
      document.choose operationName? = .ok (name?, operation) ∧
      schema.root? plan.kind = some root ∧ operation.bindings supplied = .ok bindings ∧
      Inlined document.fragments operation.selections inlined ∧
      List.Forall₂ (Checker.Planned ⟨schema, bindings, document.fragments, depthLimit⟩ root)
        (Selection.leading inlined) plan.fields := by
  obtain ⟨name?, operation, root, bindings, fields, count, hchoose, hroot, hbindings, hselect, rfl⟩ :=
    ok_of_ofDocument h
  obtain ⟨inlined, hinlined, hplanned⟩ := Checker.exists_inlined_of_select hselect
  exact ⟨name?, operation, root.name, bindings, inlined, hchoose, root?_of_rootOf hroot, hbindings,
    hinlined, hplanned⟩

/-! ## Arguments -/

namespace Coercion

variable {schema : Schema} {reader : DefaultReader} {place : Position} {scalar : String}
  {nullable : Bool} {definition : TypeDef}

/-- What an argument of a scalar that every schema has gets for what is supplied, if it has no
default. -/
inductive ScalarArgument (scalar : String) : Option Literal → Option Value → Prop where
  /-- nothing is supplied -/
  | omitted : ScalarArgument scalar none none
  /-- a variable without a value -/
  | unbound (name : String) : ScalarArgument scalar (some (.variable name)) none
  /-- null -/
  | null : ScalarArgument scalar (some .null) (some .null)
  /-- a literal for a value of the scalar -/
  | given {literal : Literal} {value : Value} : CoercesBuiltin scalar literal value →
      ScalarArgument scalar (some literal) (some value)

theorem scalar_of_coerce (ht : schema.type? scalar = some definition)
    (hkind : definition.kind = .scalar) (hbuiltin : Schema.isBuiltin scalar = true)
    {literal : Literal} (hvariable : ∀ name, literal ≠ .variable name) {argument : String}
    {position : Position} {value : Value}
    (h : coerce schema reader place literal (.named scalar nullable) argument position =
      .ok value) : ScalarArgument scalar (some literal) (some value) := by
  have hnamed : ∀ readings, coerceNamed schema reader place literal readings scalar argument
      position = .ok value → ScalarArgument scalar (some literal) (some value) := by
    intro readings hread
    obtain ⟨found, hfound, hcases⟩ := coerceNamed_cases hread
    obtain rfl := Option.some.inj (ht.symm.trans hfound)
    rcases hcases with ⟨-, -, hvalue⟩ | ⟨-, hcustom, -⟩ | ⟨_, _, hother, -⟩ | ⟨_, _, _, hother, -⟩
    · exact .given hvalue
    · rw [hbuiltin] at hcustom
      cases hcustom
    · rw [hkind] at hother
      cases hother
    · rw [hkind] at hother
      cases hother
  by_cases hnull : literal = .null
  · obtain rfl := hnull
    simp only [coerce] at h
    split at h
    · obtain rfl := Except.ok.inj h
      exact .null
    · cases h
  · have hreadings : ∃ readings, coerce schema reader place literal (.named scalar nullable)
        argument position = coerceNamed schema reader place literal readings scalar argument
          position := by
      cases literal <;>
        first | exact absurd rfl hnull | exact absurd rfl (hvariable _) | exact ⟨_, rfl⟩
    obtain ⟨readings, hreadings⟩ := hreadings
    exact hnamed readings (hreadings.symm.trans h)

theorem scalar_of_coerceArgument (ht : schema.type? scalar = some definition)
    (hkind : definition.kind = .scalar) (hbuiltin : Schema.isBuiltin scalar = true) {name : String}
    {supplied? : Option Supplied} {value? : Option Value}
    (hread : ∀ supplied, supplied? = some supplied →
      supplied.reading = coerce schema reader place supplied.literal)
    (h : coerceArgument reader place ⟨name, .named scalar nullable, none⟩ supplied? = .ok value?) :
    ScalarArgument scalar (supplied?.map (·.literal)) value? := by
  cases supplied? with
  | none =>
    simp only [coerceArgument, given?] at h
    replace h : (if nullable then .ok none else .error _) = Except.ok value? := h
    split at h
    · obtain rfl := Except.ok.inj h
      exact .omitted
    · cases h
  | some supplied =>
    by_cases hvariable : ∃ unbound, supplied.literal = .variable unbound
    · obtain ⟨literal, position, reading⟩ := supplied
      obtain ⟨unbound, rfl⟩ := hvariable
      obtain ⟨given, hgiven, h⟩ := ok_of_bind h
      rw [given?] at hgiven
      split at hgiven
      · obtain rfl := Except.ok.inj hgiven
        replace h : (if nullable then .ok none else .error _) = Except.ok value? := h
        split at h
        · obtain rfl := Except.ok.inj h
          exact .unbound unbound
        · cases h
      · cases hgiven
    · rw [not_exists] at hvariable
      rw [coerceArgument_some hvariable, hread supplied rfl] at h
      obtain ⟨value, hvalue, rfl⟩ := ok_of_map h
      exact scalar_of_coerce ht hkind hbuiltin hvariable hvalue

/-- The value of the only argument of a field. What is supplied for it is the last literal of its
name, as `supplied?` has it. -/
theorem scalar_of_coerceAll (ht : schema.type? scalar = some definition)
    (hkind : definition.kind = .scalar) (hbuiltin : Schema.isBuiltin scalar = true)
    {bindings : Members Value} {field name : String} (hname : name ≠ "__typename")
    {arguments : List Argument} {values : Members Value}
    (h : coerceAll schema bindings field place [⟨name, .named scalar nullable, none⟩] arguments =
      .ok values) :
    ScalarArgument scalar (supplied? (boundLiterals bindings arguments) name)
      (Members.get? values name) := by
  let pairs : List (String × Supplied) := arguments.map fun argument =>
    (argument.name, ⟨argument.value.bind bindings, argument.position,
      coerce schema (readDefault schema place (defaultCount schema + 1)) place
        (argument.value.bind bindings)⟩)
  have hliterals : literals pairs = boundLiterals bindings arguments := by
    rw [literals, List.map_map]
    rfl
  have hread : ∀ supplied, Members.get? (kept pairs) name = some supplied →
      supplied.reading =
        coerce schema (readDefault schema place (defaultCount schema + 1)) place
          supplied.literal := by
    intro supplied hsupplied
    obtain ⟨hmem, -⟩ := mem_of_mem_kept (Members.mem_of_get? hsupplied)
    obtain ⟨argument, -, heq⟩ := List.mem_map.mp hmem
    obtain ⟨-, rfl⟩ := Prod.mk.inj heq
    rfl
  obtain ⟨⟨result, stray⟩, hresult, h⟩ := ok_of_bind h
  obtain ⟨value?, hvalue, hresult⟩ := ok_of_bind hresult
  have hget : Members.get? values name = value? := by
    obtain ⟨rfl, -⟩ := Prod.mk.inj (Except.ok.inj hresult)
    dsimp only at h
    split at h
    · obtain rfl := Except.ok.inj h
      cases value? with
      | none => rfl
      | some value => simp [Members.get?, Members.set]
    · cases h
  rw [hget, ← hliterals, supplied?_literals pairs hname]
  exact scalar_of_coerceArgument ht hkind hbuiltin hread hvalue

end Coercion

end FeedGraph
