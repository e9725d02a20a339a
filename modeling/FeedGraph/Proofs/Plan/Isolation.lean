import Mathlib.Data.Nat.Find
import FeedGraph.Proofs.Plan.Cycles
import FeedGraph.Proofs.Plan.Termination

/-!
# Isolation: one operation of several

The operations of a document share its fragments, and a client may send one set of variables for all
of them. One operation is executed, the one that is asked for by name. The main statement is
`Plan.ofDocument_isolated`: it is planned, or rejected, as if there were nothing else. The document
may be reduced to the operation and the fragments that it leads to, the variables to those that it
declares (`Document.reduced`, `Operation.declaredAmong`); and whatever else there is may be changed.

Which fragments selections lead to is computed by `Selection.reached`, in so many rounds as there
are fragments. That is enough because a shortest way to a fragment comes by no fragment twice.
-/

namespace FeedGraph

open Relation

/-! ## Which fragments are reached -/

/-- The fragments that a fragment uses; none if it is not defined. -/
def usedBy (fragments : List Fragment) (name : String) : List String :=
  match fragments.find? (·.name = name) with
  | some fragment => Selection.usesAll fragment.selections
  | none => []

/-- What some fragments lead to within so many steps, these included. -/
def reachedWithin (fragments : List Fragment) : Nat → List String → List String
  | 0, names => names
  | steps + 1, names => names ++ reachedWithin fragments steps (names.flatMap (usedBy fragments))

/-- The fragments that selections lead to, as a list that can be computed; `Reached` is the relation
that it decides, among fragments that are defined. -/
def Selection.reached (fragments : List Fragment) (selections : List Selection) : List String :=
  reachedWithin fragments fragments.length (usesAll selections)

def LeadsIn (fragments : List Fragment) : Nat → String → String → Prop
  | 0, first, last => first = last
  | steps + 1, first, last => ∃ used, Uses fragments first used ∧ LeadsIn fragments steps used last

section

variable {fragments : List Fragment} {first last name : String} {names : List String} {steps : Nat}

theorem mem_usedBy : last ∈ usedBy fragments first ↔ Uses fragments first last := by
  rw [usedBy, Uses]
  cases fragments.find? (·.name = first) <;> simp

theorem mem_reachedWithin : last ∈ reachedWithin fragments steps names ↔
    ∃ first ∈ names, ∃ way ≤ steps, LeadsIn fragments way first last := by
  induction steps generalizing names with
  | zero => simp [reachedWithin, LeadsIn]
  | succ steps ih =>
    rw [reachedWithin, List.mem_append, ih]
    constructor
    · rintro (hmem | ⟨used, hused, way, hle, hway⟩)
      · exact ⟨last, hmem, 0, Nat.zero_le _, rfl⟩
      · obtain ⟨first, hfirst, hused⟩ := List.mem_flatMap.mp hused
        exact ⟨first, hfirst, way + 1, Nat.succ_le_succ hle, used, mem_usedBy.mp hused, hway⟩
    · rintro ⟨first, hfirst, way, hle, hway⟩
      cases way with
      | zero => exact .inl (hway ▸ hfirst)
      | succ way =>
        obtain ⟨used, hused, hway⟩ := hway
        exact .inr ⟨used, List.mem_flatMap.mpr ⟨first, hfirst, mem_usedBy.mpr hused⟩, way,
          Nat.le_of_succ_le_succ hle, hway⟩

theorem LeadsIn.reflTransGen (h : LeadsIn fragments steps first last) :
    ReflTransGen (Uses fragments) first last := by
  induction steps generalizing first with
  | zero => exact h ▸ .refl
  | succ steps ih =>
    obtain ⟨used, hused, hway⟩ := h
    exact .head hused (ih hway)

theorem exists_leadsIn (h : ReflTransGen (Uses fragments) first last) :
    ∃ steps, LeadsIn fragments steps first last := by
  induction h using ReflTransGen.head_induction_on with
  | refl => exact ⟨0, rfl⟩
  | head hused _ ih =>
    obtain ⟨steps, hway⟩ := ih
    exact ⟨steps + 1, _, hused, hway⟩

/-- A way to a fragment than which there is none shorter, in steps of `Uses`. -/
def ShortestWay (fragments : List Fragment) (last : String) (steps : Nat) (first : String) : Prop :=
  LeadsIn fragments steps first last ∧ ∀ way, LeadsIn fragments way first last → steps ≤ way

/-- The rest of a shortest way is a shortest way, and it starts from a fragment that is defined, if
the last one is. -/
theorem ShortestWay.step (hlast : last ∈ fragments.map (·.name))
    (h : ShortestWay fragments last (steps + 1) first) :
    ∃ used ∈ fragments.map (·.name), Uses fragments first used ∧
      ShortestWay fragments last steps used := by
  obtain ⟨⟨used, hused, hway⟩, hleast⟩ := h
  refine ⟨used, ?_, hused, hway, fun way hother => ?_⟩
  · cases steps with
    | zero =>
      obtain rfl : used = last := hway
      exact hlast
    | succ steps =>
      obtain ⟨next, ⟨fragment, hfragment, -⟩, -⟩ := hway
      have hname : fragment.name = used := by simpa using List.find?_some hfragment
      exact hname ▸ List.mem_map_of_mem (List.mem_of_find?_eq_some hfragment)
  · exact Nat.le_of_succ_le_succ (hleast (way + 1) ⟨used, hused, hother⟩)

/-- A shortest way is no longer than there are fragments: else it would come by one of them twice,
and could be shortened by what is between. -/
theorem ShortestWay.le (hlast : last ∈ fragments.map (·.name))
    (h : ShortestWay fragments last steps first) : steps ≤ fragments.length := by
  by_contra hlong
  have hlength : (fragments.map (·.name)).length < steps := by
    rw [List.length_map]
    exact Nat.not_le.mp hlong
  obtain ⟨twice, -, -, i, j, hlt, hi, hj⟩ :=
    exists_revisited (P := ShortestWay fragments last) (fun _ _ => ShortestWay.step hlast) hlength h
  exact absurd (hj.2 i hi.1) (Nat.not_le.mpr hlt)

/-- As many steps as there are fragments are enough for `Selection.reached`, since by
`ShortestWay.le` no shortest way needs more. -/
theorem mem_reached {selections : List Selection} (hname : name ∈ fragments.map (·.name)) :
    name ∈ Selection.reached fragments selections ↔ Reached fragments selections name := by
  rw [Selection.reached, mem_reachedWithin]
  constructor
  · rintro ⟨used, hused, way, -, hway⟩
    exact ⟨used, hused, hway.reflTransGen⟩
  · rintro ⟨used, hused, hpath⟩
    classical
    have hway := exists_leadsIn hpath
    have hshortest : ShortestWay fragments name (Nat.find hway) used :=
      ⟨Nat.find_spec hway, fun _ => Nat.find_min' hway⟩
    exact ⟨used, hused, Nat.find hway, hshortest.le hname, hshortest.1⟩

end

/-! ## Variables -/

namespace Operation

/-- What is supplied for the variables that an operation declares. -/
def declaredAmong (operation : Operation) (supplied : Members Json) : Members Json :=
  supplied.filter fun pair => (operation.declared.map (·.name)).contains pair.1

theorem get?_declaredAmong {operation : Operation} {definition : VariableDefinition}
    (h : definition ∈ operation.declared) (supplied : Members Json) :
    Members.get? (operation.declaredAmong supplied) definition.name =
      Members.get? supplied definition.name := by
  have hkeep : (operation.declared.map (·.name)).contains definition.name = true :=
    List.contains_iff_mem.mpr (List.mem_map_of_mem h)
  rw [declaredAmong, Members.get?_filter, if_pos hkeep]

/-- The values of variables depend on what is supplied for them only. -/
theorem bindingsFrom_congr {supplied supplied' : Members Json} {declared : List VariableDefinition}
    (h : ∀ definition ∈ declared,
      Members.get? supplied' definition.name = Members.get? supplied definition.name)
    (start : Members Value) :
    bindingsFrom supplied' declared start = bindingsFrom supplied declared start := by
  induction declared generalizing start with
  | nil => rfl
  | cons definition rest ih =>
    obtain ⟨hfirst, hrest⟩ := List.forall_mem_cons.mp h
    have hgiven : definition.given? supplied' = definition.given? supplied := by
      rw [VariableDefinition.given?, VariableDefinition.given?, hfirst]
    simp only [bindingsFrom_cons, hgiven, ih hrest]

end Operation

/-! ## Documents -/

namespace Document

/-- The document with one of its operations, and with the fragments that this one leads to. -/
def reduced (document : Document) (name : String) (operation : Operation) : Document where
  operations := .named [(name, operation)]
  fragments := document.fragments.filter fun fragment =>
    (Selection.reached document.fragments operation.selections).contains fragment.name

variable {document : Document} {name : String} {operation : Operation}

theorem mem_fragments_reduced {fragment : Fragment} :
    fragment ∈ (document.reduced name operation).fragments ↔ fragment ∈ document.fragments ∧
      Reached document.fragments operation.selections fragment.name := by
  rw [reduced, List.mem_filter, List.contains_iff_mem]
  exact and_congr_right fun hmem => mem_reached (List.mem_map_of_mem hmem)

/-- Leaving out fragments that are not led to does not change which definition of a name is the
first, for those that are. -/
theorem fragment?_reduced {used : String}
    (hused : Reached document.fragments operation.selections used) :
    (document.reduced name operation).fragment? used = document.fragment? used := by
  rw [fragment?, fragment?, reduced, ← List.head?_filter, ← List.head?_filter, List.filter_filter]
  refine congrArg List.head? (List.filter_congr fun fragment hmem => ?_)
  by_cases heq : fragment.name = used
  · subst heq
    have hreached := (mem_reached (List.mem_map_of_mem hmem)).mpr hused
    simp [hreached]
  · simp [heq]

theorem choose_of_named {operations : List (String × Operation)}
    (hoperations : document.operations = .named operations)
    (hname : Members.get? operations name = some operation) :
    document.choose (some name) = .ok (some name, operation) := by
  rw [choose.eq_def, hoperations]
  cases operations with
  | nil => cases hname
  | cons first rest => simp only [hname]

end Document

namespace Plan

open Checker

/-- What an operation depends on: the fragments that it leads to (`Checker.select_congr`) and the
variables that it declares (`bindingsFrom_congr`). -/
theorem ofOperation_congr {fragments others : List Fragment} {operation : Operation}
    {supplied supplied' : Members Json}
    (hsame : ∀ used, Reached fragments operation.selections used →
      others.find? (·.name = used) = fragments.find? (·.name = used))
    (hsupplied : ∀ definition ∈ operation.declared,
      Members.get? supplied' definition.name = Members.get? supplied definition.name)
    (schema : Schema) (depthLimit : Nat) (name? : Option String) :
    ofOperation schema others supplied' depthLimit name? operation =
      ofOperation schema fragments supplied depthLimit name? operation := by
  have hbindings : operation.bindings supplied' = operation.bindings supplied :=
    Operation.bindingsFrom_congr hsupplied []
  have hselect := fun bindings root => @select_congr ⟨schema, bindings, fragments, depthLimit⟩ others
    root operation.selections hsame
  simp only [ofOperation, hbindings, hselect]

/-- The operation of a name is planned alike in documents that have it under this name, where the
fragments and the variables are the same that it has to do with. -/
theorem ofDocument_congr {document other : Document}
    {operations operations' : List (String × Operation)} {name : String} {operation : Operation}
    {supplied supplied' : Members Json}
    (hoperations : document.operations = .named operations)
    (hname : Members.get? operations name = some operation)
    (hoperations' : other.operations = .named operations')
    (hname' : Members.get? operations' name = some operation)
    (hsame : ∀ used, Reached document.fragments operation.selections used →
      other.fragment? used = document.fragment? used)
    (hsupplied : ∀ definition ∈ operation.declared,
      Members.get? supplied' definition.name = Members.get? supplied definition.name)
    (schema : Schema) (depthLimit : Nat) :
    ofDocument schema other (some name) supplied' depthLimit =
      ofDocument schema document (some name) supplied depthLimit := by
  rw [ofDocument_of_choose (Document.choose_of_named hoperations hname),
    ofDocument_of_choose (Document.choose_of_named hoperations' hname')]
  exact ofOperation_congr hsame hsupplied schema depthLimit (some name)

/-- One operation of a document, and the name that it is asked for by, are what counts, with what it
has to do with. The first three fields are about leaving everything else out, the last one is about
changing it. -/
structure Isolated (schema : Schema) (document : Document) (name : String) (operation : Operation)
    (supplied : Members Json) (depthLimit : Nat) : Prop where
  /-- the reduced document has the fragments that the operation leads to -/
  fragments_iff : ∀ fragment, fragment ∈ (document.reduced name operation).fragments ↔
    fragment ∈ document.fragments ∧ Reached document.fragments operation.selections fragment.name
  /-- the operation is planned, or rejected, as it is in the reduced document -/
  reduced : ofDocument schema document (some name) supplied depthLimit =
    ofDocument schema (document.reduced name operation) (some name) supplied depthLimit
  /-- and there, as it is with the values of the variables that it declares -/
  declared : ofDocument schema (document.reduced name operation) (some name) supplied depthLimit =
    ofDocument schema (document.reduced name operation) (some name)
      (operation.declaredAmong supplied) depthLimit
  /-- other operations, fragments that it does not lead to, and variables that it does not declare may
  be added, left out or altered -/
  unchanged : ∀ (other : Document) (operations' : List (String × Operation))
      (supplied' : Members Json),
    other.operations = .named operations' → Members.get? operations' name = some operation →
    (∀ used, Reached document.fragments operation.selections used →
      other.fragment? used = document.fragment? used) →
    (∀ definition ∈ operation.declared,
      Members.get? supplied' definition.name = Members.get? supplied definition.name) →
    ofDocument schema other (some name) supplied' depthLimit =
      ofDocument schema document (some name) supplied depthLimit

/-- An operation that is asked for by its name is planned, or rejected, as if there were nothing
else in the document than this operation and the fragments that it leads to. -/
theorem ofDocument_isolated {document : Document} {operations : List (String × Operation)}
    {name : String} {operation : Operation} (hoperations : document.operations = .named operations)
    (hname : Members.get? operations name = some operation) (schema : Schema)
    (supplied : Members Json) (depthLimit : Nat) :
    Isolated schema document name operation supplied depthLimit := by
  have hreduced : Members.get? [(name, operation)] name = some operation := if_pos rfl
  have hdeclared : ∀ definition ∈ operation.declared,
      Members.get? (operation.declaredAmong supplied) definition.name =
        Members.get? supplied definition.name :=
    fun definition hmem => Operation.get?_declaredAmong hmem supplied
  constructor
  case fragments_iff => exact fun _ => Document.mem_fragments_reduced
  case reduced =>
    refine (ofDocument_congr hoperations hname rfl hreduced ?_ ?_ schema depthLimit).symm
    · exact fun used hused => Document.fragment?_reduced hused
    · exact fun _ _ => rfl
  case declared =>
    exact (ofDocument_congr rfl hreduced rfl hreduced (fun _ _ => rfl) hdeclared schema
      depthLimit).symm
  case unchanged =>
    intro other operations' supplied' hoperations' hname' hsame hsupplied
    exact ofDocument_congr hoperations hname hoperations' hname' hsame hsupplied schema depthLimit

end Plan

namespace Concerts

def whereabouts : Operation where
  kind := .query
  declared := [⟨"id", ⟨1, 13⟩, .named "ID" false, none⟩]
  selections :=
    [.field none "concert" [⟨"id", .variable "id", ⟨1, 36⟩⟩] [.spread "Place" ⟨1, 43⟩] ⟨1, 24⟩]
  position := ⟨1, 1⟩

/-- This operation, and one that uses the fragment that uses itself. -/
def operations : List (String × Operation) :=
  [("Where", whereabouts), ("Endless", ⟨.query, [], [.spread "Loop" ⟨2, 17⟩], ⟨2, 1⟩⟩)]

def several : Document := ⟨.named operations, looping.fragments⟩

/-- Values of variables, one of which is not declared. -/
def sent : Members Json := [("size", .null), ("id", .string "7")]

theorem whereabouts_isolated : several.operations = .named operations ∧
    Members.get? operations "Where" = some whereabouts ∧
    Plan.Isolated schema several "Where" whereabouts sent 16 :=
  ⟨rfl, rfl, Plan.ofDocument_isolated rfl rfl schema sent 16⟩

/-- One fragment and one value are left, and the operation is accepted. -/
example : (several.reduced "Where" whereabouts).fragments.map (·.name) = ["Place"] ∧
    (whereabouts.declaredAmong sent).map (·.1) = ["id"] ∧
    (Plan.ofDocument schema several (some "Where") sent 16).isOk = true := by
  refine ⟨by decide, by decide, by cbv⟩

end Concerts

end FeedGraph
