import FeedGraph.Proofs.Plan.Bindings
import FeedGraph.Proofs.Plan.Faults
import FeedGraph.Proofs.Plan.Visits

/-!
# Accounts: what in an operation a rejection is about

A rejection says little about where it comes from. `Checker.Accounted` says what the selections must
be like that are rejected: a fragment that is said to be used inside itself is led to and leads back
to itself; a field with unsuitable values is selected and declared; and a field with unsuitable
arguments is selected and declared, and its arguments are rejected as the operation is.

The main statement is `Plan.faults_ofDocument`: what an operation selects accounts for its
rejection.
-/

namespace FeedGraph

open Relation

/-- Nothing can be selected of values of these types, and they cannot be left without selections
either. -/
def TypeKind.Unselectable : TypeKind → Prop
  | .interface _ | .union _ | .input _ => True
  | _ => False

namespace Checker

variable {checker : Checker} {spread : Spreader}

/-- What is known of the selections that a rejection is about. For most reasons nothing is; the
others are about a fragment that leads back to itself, about the type of a field, or about arguments
that are of the wrong type or have defaults that never end. For the last three, the field is given
by a `FieldUse` that the selections have at some depth. -/
def Accounted (checker : Checker) (container : String) (selections : List Selection) :
    Rejection → Prop
  | .fragmentCycle name _ =>
    Reached checker.fragments selections name ∧ TransGen (Uses checker.fragments) name name
  | .unselectableType type place =>
    ∃ use definition, Selects checker.schema checker.fragments use container selections ∧
      use.name ≠ PlannedField.typename ∧
      checker.schema.field? use.container use.name = some definition ∧
      definition.type.underlying = type ∧ use.place = place ∧
      ∀ typeDef, checker.schema.type? type = some typeDef → typeDef.kind.Unselectable
  | .mismatch argument expected actual place =>
    ∃ use definition, Selects checker.schema checker.fragments use container selections ∧
      use.name ≠ PlannedField.typename ∧
      checker.schema.field? use.container use.name = some definition ∧
      Coercion.coerceAll checker.schema checker.bindings use.name use.place definition.arguments
        use.arguments = .error (.mismatch argument expected actual place)
  | .endlessDefault argument place =>
    ∃ use definition, Selects checker.schema checker.fragments use container selections ∧
      use.name ≠ PlannedField.typename ∧
      checker.schema.field? use.container use.name = some definition ∧
      Coercion.coerceAll checker.schema checker.bindings use.name use.place definition.arguments
        use.arguments = .error (.endlessDefault argument place)
  | _ => True

namespace Accounted

variable {container : String} {selections : List Selection} {rejection : Rejection}

/-- What accounts for a rejection is still there in what contains it. -/
theorem imp {container' : String} {selections' : List Selection}
    (h : Accounted checker container selections rejection)
    (huses : Selection.usesAll selections ⊆ Selection.usesAll selections')
    (hselects : ∀ use, Selects checker.schema checker.fragments use container selections →
      Selects checker.schema checker.fragments use container' selections') :
    Accounted checker container' selections' rejection := by
  cases rejection with
  | fragmentCycle => exact ⟨h.1.mono huses, h.2⟩
  | unselectableType | mismatch | endlessDefault =>
    obtain ⟨use, definition, huse, hrest⟩ := h
    exact ⟨use, definition, hselects use huse, hrest⟩
  | _ => trivial

/-- The use of a fragment: what is selected by the fragment is selected by the use, and fragments
that are led to from inside are led to from outside. -/
theorem fragment {name : String} {place : Position} {fragment : Fragment}
    (hfragment : checker.fragments.find? (·.name = name) = some fragment)
    (h : Accounted checker container fragment.selections rejection) :
    Accounted checker container [.spread name place] rejection := by
  cases rejection with
  | fragmentCycle => exact ⟨h.1.enter List.mem_cons_self hfragment, h.2⟩
  | unselectableType | mismatch | endlessDefault =>
    obtain ⟨use, definition, huse, hrest⟩ := h
    exact ⟨use, definition, .spread List.mem_cons_self hfragment huse, hrest⟩
  | _ => trivial

section

variable {name : String} {alias? : Option String} {arguments : List Argument} {place : Position}
  {definition : FieldDef}

theorem of_type (hname : name ≠ PlannedField.typename)
    (hdefinition : checker.schema.field? container name = some definition)
    (h : ∀ typeDef, checker.schema.type? definition.type.underlying = some typeDef →
      typeDef.kind.Unselectable) :
    Accounted checker container [.field alias? name arguments selections place]
      (.unselectableType definition.type.underlying place) :=
  ⟨⟨container, name, arguments, place⟩, definition, .here rfl List.mem_cons_self, hname, hdefinition,
    rfl, rfl, h⟩

/-- Of all rejections of arguments, those that have to be accounted for are rejections by
`coerceAll` for a selected field; no other part of a rejection about arguments is looked at. -/
theorem of_arguments (hname : name ≠ PlannedField.typename)
    (hdefinition : checker.schema.field? container name = some definition)
    (h : Coercion.coerceAll checker.schema checker.bindings name place definition.arguments
      arguments = .error rejection) :
    Accounted checker container [.field alias? name arguments selections place] rejection := by
  have habout := Coercion.aboutArguments_coerceAll _ _ _ _ rejection h
  cases rejection with
  | mismatch | endlessDefault =>
    exact ⟨⟨container, name, arguments, place⟩, definition, .here rfl List.mem_cons_self, hname,
      hdefinition, h⟩
  | fragmentCycle | unselectableType => exact habout.elim
  | _ => trivial

end

theorem of_outputs (h : rejection.AboutOutputs) :
    Accounted checker container selections rejection := by
  cases rejection <;> trivial

end Accounted

section

variable {α β : Type} {kind : Rejection → Prop} {count : Nat}

theorem faults_bind {x : Counting α} {f : α → Counting β} (h : Faults kind (x count))
    (hnext : ∀ a middle, Faults kind (f a middle)) : Faults kind ((x >>= f) count) := by
  rw [bind_counting]
  exact h.bind fun result _ => hnext result.1 result.2

theorem faults_lift {x : Except Rejection α} (h : Faults kind x) :
    Faults kind ((liftM x : Counting α) count) := by
  rw [lift_counting]
  exact h.map (·, count)

end

section

variable {container : String} {selections : List Selection} {place : Position} {count : Nat}

theorem faults_countField :
    Faults (Accounted checker container selections) (countField place count) := by
  rw [countField]
  split
  · exact .error trivial
  · exact .ok _

theorem faults_typenameField {alias? : Option String} {arguments : List Argument}
    {inside : List Selection} :
    Faults (Accounted checker container selections)
      (typenameField alias? arguments inside place) := by
  rw [typenameField]
  split
  · exact .error trivial
  · split
    · exact .error trivial
    · exact .ok _

theorem faults_selected {name type : String} {depth : Nat} {inside : List Selection}
    {definition : TypeDef}
    (htype : definition.kind.Unselectable →
      Accounted checker container selections (.unselectableType type place))
    (h : Faults (Accounted checker container selections)
      (collectAll checker spread definition (depth + 1) inside count)) :
    Faults (Accounted checker container selections)
      (selected checker spread name place depth inside definition type count) := by
  rw [selected.eq_def]
  cases hkind : definition.kind with
  | object fields =>
    dsimp only
    rw [ite_counting]
    split
    · exact .error trivial
    · refine faults_bind h fun _ _ => faults_lift ?_
      exact (PlannedField.faults_merge _).mono fun _ => .of_outputs
  | scalar | enumeration values =>
    dsimp only
    rw [ite_counting]
    split
    · exact .ok _
    · exact .error trivial
  | _ => exact .error (htype (by rw [hkind]; trivial))

end

mutual

/-- The cases are those of `Checker.collect_field`: the field itself accounts for its type and its
arguments, and what is selected of it for the rest. -/
theorem faults_collect (container : TypeDef) (depth count : Nat) (selection : Selection)
    (hspread : ∀ name ∈ selection.uses, ∀ container depth place count,
      Faults (Accounted checker container.name [.spread name place])
        (spread container depth name place count)) :
    Faults (Accounted checker container.name [selection])
      (collect checker spread container depth selection count) := by
  match selection with
  | .spread fragment place =>
    simp only [collect]
    exact hspread fragment (by simp [Selection.uses]) container depth place count
  | .inline _ place => exact .error trivial
  | .field alias? name arguments selections place =>
    rw [collect_field]
    refine faults_bind faults_countField fun _ started => ?_
    rw [ite_counting]
    split
    · exact .error trivial
    rw [ite_counting]
    split
    · exact faults_bind (faults_lift faults_typenameField) fun _ _ => .ok _
    · next hname =>
      cases hdefinition : checker.schema.field? container.name name with
      | none => exact .error trivial
      | some definition =>
        cases htype : checker.schema.type? definition.type.underlying with
        | none =>
          simp only [htype]
          exact .error (.of_type hname hdefinition (by simp [htype]))
        | some typeDef =>
          simp only [htype]
          refine faults_bind (faults_selected (fun hkind => ?_) ?_) fun _ _ =>
            faults_bind (faults_lift ?_) fun _ _ => .ok _
          · exact .of_type hname hdefinition (by simpa [htype] using hkind)
          · have hbelow := faults_collectAll typeDef (depth + 1) started selections hspread
            rw [Schema.name_of_type? htype] at hbelow
            refine hbelow.mono fun rejection h => h.imp (fun _ hmem => ?_) fun use huse => ?_
            · exact List.mem_append_left _ hmem
            · exact .inside List.mem_cons_self hname hdefinition huse
          · exact fun rejection h => .of_arguments hname hdefinition h

theorem faults_collectAll (container : TypeDef) (depth count : Nat) (selections : List Selection)
    (hspread : ∀ name ∈ Selection.usesAll selections, ∀ container depth place count,
      Faults (Accounted checker container.name [.spread name place])
        (spread container depth name place count)) :
    Faults (Accounted checker container.name selections)
      (collectAll checker spread container depth selections count) := by
  match selections with
  | [] => exact .ok _
  | selection :: rest =>
    rw [collectAll]
    refine faults_bind ?_ fun _ _ => faults_bind ?_ fun _ _ => .ok _
    · have hfirst := faults_collect container depth count selection
        fun name hname => hspread name (List.mem_append_left _ hname)
      refine hfirst.mono fun rejection h => h.imp (fun _ hmem => ?_) fun use huse => ?_
      · exact List.mem_append_left _ (by simpa [Selection.usesAll] using hmem)
      · exact huse.mono (List.cons_subset_cons _ (List.nil_subset rest))
    · have hrest := fun later => faults_collectAll container depth later rest
        fun name hname => hspread name (List.mem_append_right _ hname)
      refine (hrest _).mono fun rejection h => h.imp (fun _ hmem => ?_) fun use huse => ?_
      · exact List.mem_append_right _ hmem
      · exact huse.mono (List.subset_cons_self selection rest)

end

/-- The use of a fragment accounts for what it is refused for. A fragment that is on the path leads
to what is left, and so to itself; and for one that is not, a step is left (`Entered.enter_of_new`),
so that running out of steps is no reason for a refusal. -/
theorem faults_expand {left : Nat} {path : List String} {name : String} (container : TypeDef)
    (depth : Nat) (place : Position) (count : Nat)
    (hentered : Entered checker.fragments left path [.spread name place]) :
    Faults (Accounted checker container.name [.spread name place])
      (checker.expand left path container depth name place count) := by
  induction left using Nat.strongRecOn generalizing path name container depth place count with
  | ind left ih =>
    have hused : name ∈ Selection.usesAll [.spread name place] := List.mem_cons_self
    rw [expand.eq_def]
    dsimp only
    by_cases hpath : path.contains name = true
    · rw [if_pos hpath]
      have hmem : name ∈ path := by simpa using hpath
      exact .error ⟨⟨name, hused, .refl⟩, hentered.leads name hmem name hused⟩
    · rw [if_neg hpath]
      have hnew : name ∉ path := by simpa using hpath
      cases hfragment : checker.fragments.find? (·.name = name) with
      | none => exact .error trivial
      | some fragment =>
        dsimp only
        rw [ite_counting]
        split
        · exact .error trivial
        obtain ⟨rest, rfl, hrest⟩ := hentered.enter_of_new hnew hused hfragment
        have hbelow := faults_collectAll container depth count fragment.selections
          fun used hmem container depth place count =>
            ih rest (Nat.lt_succ_self rest) container depth place count
              (hrest.mono (List.cons_subset.mpr ⟨hmem, List.nil_subset _⟩))
        exact hbelow.mono fun rejection h => h.fragment hfragment

/-- What an operation selects accounts for what it is refused for; merging at the end is refused for
conflicts only. -/
theorem faults_select (container : TypeDef) (selections : List Selection) (count : Nat) :
    Faults (Accounted checker container.name selections)
      (checker.select container selections count) := by
  rw [select]
  refine faults_bind (faults_collectAll container 1 count selections ?_) fun _ _ => faults_lift ?_
  · exact fun name _ container depth place count => faults_expand container depth place count .start
  · exact (PlannedField.faults_merge _).mono fun _ => .of_outputs

end Checker

/-! ## Documents -/

/-- The reasons for which `Accounted` asks something of the selections. -/
def Rejection.OfSelections : Rejection → Prop
  | .fragmentCycle .. | .unselectableType .. | .mismatch .. | .endlessDefault .. => True
  | _ => False

theorem Rejection.AboutOperation.not_ofSelections {rejection : Rejection}
    (h : rejection.AboutOperation) : ¬ rejection.OfSelections := by
  cases rejection <;> first | exact h.elim | exact id

namespace Plan

open Checker

/-- What comes before the selections, the root and the variables, is `AboutOperation`. -/
theorem faults_ofOperation (schema : Schema) (fragments : List Fragment) (supplied : Members Json)
    (depthLimit : Nat) (name? : Option String) (operation : Operation) :
    Faults (fun rejection => rejection.OfSelections → ∃ root bindings,
        schema.root? operation.kind = some root ∧ operation.bindings supplied = .ok bindings ∧
        Accounted ⟨schema, bindings, fragments, depthLimit⟩ root operation.selections rejection)
      (ofOperation schema fragments supplied depthLimit name? operation) := by
  refine .bind ?_ fun root hroot => .bind ?_ fun bindings hbindings => .bind ?_ fun _ _ => .ok _
  · exact (faults_rootOf schema operation).mono fun _ h hof => absurd hof h.not_ofSelections
  · exact (Operation.faults_bindingsFrom supplied operation.declared []).mono
      fun _ h hof => absurd hof h.not_ofSelections
  · exact (faults_select root operation.selections 0).mono fun rejection h _ =>
      ⟨root.name, bindings, root?_of_rootOf hroot, hbindings, h⟩

/-- What an operation selects accounts for its rejection. The operation is the one that
`Document.choose` finds, with the root and the bindings it has in the plan. -/
theorem faults_ofDocument (schema : Schema) (document : Document) (operationName? : Option String)
    (supplied : Members Json) (depthLimit : Nat) :
    Faults (fun rejection => rejection.OfSelections → ∃ name? operation root bindings,
        document.choose operationName? = .ok (name?, operation) ∧
        schema.root? operation.kind = some root ∧ operation.bindings supplied = .ok bindings ∧
        Accounted ⟨schema, bindings, document.fragments, depthLimit⟩ root operation.selections
          rejection)
      (ofDocument schema document operationName? supplied depthLimit) := by
  refine .bind ?_ fun chosen hchoose => ?_
  · exact (document.faults_choose operationName?).mono fun _ h hof =>
      absurd hof h.not_ofSelections
  · refine (faults_ofOperation _ _ _ _ _ _).mono fun rejection h hof => ?_
    obtain ⟨root, bindings, hrest⟩ := h hof
    exact ⟨chosen.1, chosen.2, root, bindings, hchoose, hrest⟩

end Plan

end FeedGraph
