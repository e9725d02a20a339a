import FeedGraph.Plan.OfDocument
import FeedGraph.Proofs.Plan.Results

/-!
# Rewriting: other literals in the same places

A document can be changed so that each literal in it is another one. Planning reads literals with
variables replaced by their values, and nothing else of them. So if the new literals come to what
the old ones were, with other bindings perhaps, the document is planned in the same way, or rejected
for the same reason at the same place (`Plan.ofDocument_rewrite`).
-/

namespace FeedGraph

/-! ## Documents with other literals -/

/-- An argument with another literal. -/
def Argument.rewrite (f : Literal → Literal) (argument : Argument) : Argument :=
  { argument with value := f argument.value }

namespace Selection

mutual

/-- A selection with other literals: every literal of its arguments, at any depth, is exchanged for
the one that `f` makes of it. -/
def rewrite (f : Literal → Literal) : Selection → Selection
  | .field alias? name arguments selections place =>
    .field alias? name (arguments.map (·.rewrite f)) (rewriteAll f selections) place
  | .spread fragment place => .spread fragment place
  | .inline selections place => .inline (rewriteAll f selections) place

def rewriteAll (f : Literal → Literal) : List Selection → List Selection
  | [] => []
  | selection :: rest => selection.rewrite f :: rewriteAll f rest

end

@[simp] theorem isEmpty_rewriteAll (f : Literal → Literal) (selections : List Selection) :
    (rewriteAll f selections).isEmpty = selections.isEmpty := by
  cases selections <;> rfl

end Selection

def Fragment.rewrite (f : Literal → Literal) (fragment : Fragment) : Fragment :=
  { fragment with selections := Selection.rewriteAll f fragment.selections }

@[simp] theorem Fragment.selections_rewrite (f : Literal → Literal) (fragment : Fragment) :
    (fragment.rewrite f).selections = Selection.rewriteAll f fragment.selections :=
  rfl

def Operation.rewrite (f : Literal → Literal) (operation : Operation) : Operation :=
  { operation with selections := Selection.rewriteAll f operation.selections }

/-- Other operations under the same names. -/
def Operations.map (f : Operation → Operation) : Operations → Operations
  | .anonymous operation => .anonymous (f operation)
  | .named operations => .named (operations.map fun named => (named.1, f named.2))

/-- Rewriting keeps names. -/
theorem find?_rewrite (f : Literal → Literal) (fragments : List Fragment) (name : String) :
    (fragments.map (·.rewrite f)).find? (·.name = name) =
      (fragments.find? (·.name = name)).map (·.rewrite f) := by
  rw [List.find?_map]
  rfl

theorem Document.choose_map (f : Operation → Operation) (document : Document)
    (others : List Fragment) (operationName? : Option String) :
    Document.choose ⟨document.operations.map f, others⟩ operationName? =
      (document.choose operationName?).map fun chosen => (chosen.1, f chosen.2) := by
  obtain ⟨operations, fragments⟩ := document
  cases operations with
  | anonymous operation => rfl
  | named operations =>
    cases operations with
    | nil => rfl
    | cons first rest =>
      cases operationName? with
      | none => cases rest <;> rfl
      | some name =>
        have hget := Members.get?_map f (first :: rest) name
        rw [List.map_cons] at hget
        simp only [Operations.map, List.map_cons, Document.choose, hget]
        cases Members.get? (first :: rest) name <;> rfl

/-! ## Planning alike -/

/-- Arguments are replaced by literals with values for variables before anything else is done with
them, so that only `bind` is to be known of the new literals. -/
theorem Coercion.coerceAll_rewrite {f : Literal → Literal} {bindings others : Members Value}
    (hbind : ∀ literal, (f literal).bind others = literal.bind bindings) (schema : Schema)
    (field : String) (place : Position) (definitions : List InputDef) (arguments : List Argument) :
    coerceAll schema others field place definitions (arguments.map (·.rewrite f)) =
      coerceAll schema bindings field place definitions arguments := by
  simp only [coerceAll, argumentsWithin, List.map_map, Function.comp_def, Argument.rewrite, hbind]

namespace Checker

/-- A checker with other bindings, and with other literals in its fragments. -/
def rewritten (checker : Checker) (f : Literal → Literal) (others : Members Value) : Checker :=
  { checker with bindings := others, fragments := checker.fragments.map (·.rewrite f) }

variable {checker : Checker} {f : Literal → Literal} {others : Members Value}

theorem typenameField_rewrite (alias? : Option String) (arguments : List Argument)
    (selections : List Selection) (place : Position) :
    typenameField alias? (arguments.map (·.rewrite f)) (Selection.rewriteAll f selections) place =
      typenameField alias? arguments selections place := by
  simp [typenameField, Argument.rewrite, Function.comp_def]

mutual

theorem collect_rewrite
    (hbind : ∀ literal, (f literal).bind others = literal.bind checker.bindings) (spread : Spreader)
    (container : TypeDef) (depth : Nat) (selection : Selection) :
    collect (checker.rewritten f others) spread container depth (selection.rewrite f) =
      collect checker spread container depth selection := by
  match selection with
  | .spread _ _ => simp only [Selection.rewrite, collect]
  | .inline _ _ => simp only [Selection.rewrite, collect]
  | .field alias? name arguments selections place =>
    simp only [Selection.rewrite, collect, rewritten, typenameField_rewrite,
      Selection.isEmpty_rewriteAll, Coercion.coerceAll_rewrite hbind]
    have hbelow := fun typeDef =>
      collectAll_rewrite hbind spread typeDef (depth + 1) selections
    simp only [rewritten] at hbelow
    simp only [hbelow]

theorem collectAll_rewrite
    (hbind : ∀ literal, (f literal).bind others = literal.bind checker.bindings) (spread : Spreader)
    (container : TypeDef) (depth : Nat) (selections : List Selection) :
    collectAll (checker.rewritten f others) spread container depth
        (Selection.rewriteAll f selections) =
      collectAll checker spread container depth selections := by
  match selections with
  | [] => simp only [Selection.rewriteAll, collectAll]
  | selection :: rest =>
    rw [Selection.rewriteAll, collectAll, collectAll, collect_rewrite hbind,
      collectAll_rewrite hbind]

end

/-- The induction is on the steps; the fragments have the same names and the same number, so that
the same are entered. -/
theorem expand_rewrite
    (hbind : ∀ literal, (f literal).bind others = literal.bind checker.bindings) (steps : Nat)
    (path : List String) :
    (checker.rewritten f others).expand steps path = checker.expand steps path := by
  have hfind : ∀ name, (checker.rewritten f others).fragments.find? (·.name = name) =
      (checker.fragments.find? (·.name = name)).map (·.rewrite f) :=
    fun name => find?_rewrite f checker.fragments name
  induction steps generalizing path with
  | zero =>
    funext container depth name place
    rw [expand, expand, hfind]
    cases checker.fragments.find? (·.name = name) <;> rfl
  | succ steps ih =>
    funext container depth name place
    rw [expand, expand, hfind]
    cases checker.fragments.find? (·.name = name) with
    | none => rfl
    | some fragment =>
      simp only [Option.map_some, Fragment.rewrite, ih, collectAll_rewrite hbind]

theorem select_rewrite
    (hbind : ∀ literal, (f literal).bind others = literal.bind checker.bindings)
    (container : TypeDef) (selections : List Selection) :
    (checker.rewritten f others).select container (Selection.rewriteAll f selections) =
      checker.select container selections := by
  have hlength : (checker.rewritten f others).fragments.length = checker.fragments.length :=
    List.length_map _
  rw [select, select, hlength, expand_rewrite hbind, collectAll_rewrite hbind]

end Checker

namespace Plan

/-- A document is planned like one with other literals, if the literals come to the same with the
values that variables have got here and there. The operations may be changed otherwise where
planning does not look, as in the variables that they declare. -/
theorem ofDocument_rewrite {document : Document} {operationName? : Option String}
    {f : Literal → Literal} {change : Operation → Operation} {supplied others : Members Json}
    (hkind : ∀ operation, (change operation).kind = operation.kind)
    (hposition : ∀ operation, (change operation).position = operation.position)
    (hselections : ∀ operation,
      (change operation).selections = Selection.rewriteAll f operation.selections)
    (hbindings : ∀ name? operation, document.choose operationName? = .ok (name?, operation) →
      Parallel (fun before after => ∀ literal : Literal, (f literal).bind after = literal.bind before)
        (operation.bindings supplied) ((change operation).bindings others))
    (schema : Schema) (depthLimit : Nat) :
    ofDocument schema ⟨document.operations.map change, document.fragments.map (·.rewrite f)⟩
        operationName? others depthLimit =
      ofDocument schema document operationName? supplied depthLimit := by
  rw [ofDocument, ofDocument, Document.choose_map]
  cases hchoose : document.choose operationName? with
  | error rejection => rfl
  | ok chosen =>
    obtain ⟨name?, operation⟩ := chosen
    dsimp only [Except.map, bind, Except.bind]
    have hroot : rootOf schema (change operation) = rootOf schema operation := by
      rw [rootOf, rootOf, hkind, hposition]
    rw [ofOperation, ofOperation, hroot, hkind, hselections]
    cases rootOf schema operation with
    | error rejection => rfl
    | ok root =>
      refine ((hbindings name? operation hchoose).bind_eq fun before after hbind => ?_).symm
      have hselect := @Checker.select_rewrite ⟨schema, before, document.fragments, depthLimit⟩ f
        after hbind root operation.selections
      simp only [Checker.rewritten] at hselect
      simp only [hselect]

end Plan

end FeedGraph
