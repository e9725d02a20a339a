import FeedGraph.Proofs.Plan.Checks
import FeedGraph.Proofs.Plan.Inlining

/-!
# Limits: how deep and how many the fields of an operation may be

With one limit for the depth an operation may be accepted, with a smaller one it may be rejected.
For each document there is one depth, at most that of the deepest field when fragments are written
out, that decides which: limits from that depth on make no difference, and with smaller ones the
operation is too deep (`Needs`). If the operation is accepted, then it is the depth of the deepest
field (`Measured`).

No selection is expanded for this. `measured_collect` follows the selections as the checker does,
with all limits at once, and finds the written-out form on the way. That no more than 10,000 fields
are checked is read off the list of the checked ones (`Plan.follows_ofDocument`), which an accepted
operation has in full: so the written-out form has no more fields either.
-/

namespace FeedGraph

namespace Selection

mutual

/-- The depth of the deepest field of a selection that stands at a depth; fragments that it uses are
not entered, so that it is asked of written-out forms. -/
def deepest : Nat → Selection → Nat
  | depth, .field _ _ _ selections _ => max depth (deepestAll (depth + 1) selections)
  | _, .spread _ _ => 0
  | depth, .inline selections _ => deepestAll depth selections

def deepestAll : Nat → List Selection → Nat
  | _, [] => 0
  | depth, selection :: rest => max (selection.deepest depth) (deepestAll depth rest)

end

mutual

/-- The number of fields of a selection, at any depth; fragments that it uses are not entered. -/
def countFields : Selection → Nat
  | .field _ _ _ selections _ => countFieldsAll selections + 1
  | .spread _ _ => 0
  | .inline selections _ => countFieldsAll selections

def countFieldsAll : List Selection → Nat
  | [] => 0
  | selection :: rest => selection.countFields + countFieldsAll rest

end

theorem deepestAll_append (depth : Nat) (selections others : List Selection) :
    deepestAll depth (selections ++ others) =
      max (deepestAll depth selections) (deepestAll depth others) := by
  induction selections with
  | nil => simp [deepestAll]
  | cons selection rest ih => rw [List.cons_append, deepestAll, deepestAll, ih, Nat.max_assoc]

theorem countFieldsAll_append (selections others : List Selection) :
    countFieldsAll (selections ++ others) =
      countFieldsAll selections + countFieldsAll others := by
  induction selections with
  | nil => simp [countFieldsAll]
  | cons selection rest ih =>
    rw [List.cons_append, countFieldsAll, countFieldsAll, ih, Nat.add_assoc]

mutual

theorem length_places (selection : Selection) :
    selection.places.length = selection.countFields := by
  match selection with
  | .field _ _ _ selections _ =>
    rw [places, List.length_cons, length_placesAll selections, countFields]
  | .spread _ _ => rfl
  | .inline selections _ => rw [places, length_placesAll selections, countFields]

/-- As many fields have a place as there are, so that the length of a record that lists all of them
is their number. -/
theorem length_placesAll (selections : List Selection) :
    (placesAll selections).length = countFieldsAll selections := by
  match selections with
  | [] => rfl
  | selection :: rest =>
    rw [placesAll, List.length_append, length_places selection, length_placesAll rest,
      countFieldsAll]

end

end Selection

namespace Inlined

variable {fragments : List Fragment} {selections inlined : List Selection}

theorem append {others inlined' : List Selection} (h : Inlined fragments selections inlined)
    (h' : Inlined fragments others inlined') :
    Inlined fragments (selections ++ others) (inlined ++ inlined') := by
  induction h with
  | nil => exact h'
  | field hinner _ _ ihrest => exact .field hinner ihrest
  | spread hfragment hbody _ _ ihrest =>
    rw [List.append_assoc]
    exact .spread hfragment hbody ihrest

theorem fragment {name : String} {place : Position} {fragment : Fragment}
    (hfragment : fragments.find? (·.name = name) = some fragment)
    (h : Inlined fragments fragment.selections inlined) :
    Inlined fragments [.spread name place] inlined := by
  rw [← List.append_nil inlined]
  exact .spread hfragment h .nil

/-- There is one way to write selections out, as the first definition of a name is the one that
counts. -/
theorem unique {other : List Selection} (h : Inlined fragments selections inlined)
    (h' : Inlined fragments selections other) : inlined = other := by
  induction h generalizing other with
  | nil =>
    cases h'
    rfl
  | field _ _ ihinner ihrest =>
    cases h' with
    | field hinner hrest => rw [ihinner hinner, ihrest hrest]
  | spread hfragment _ _ ihbody ihrest =>
    cases h' with
    | spread hfragment' hbody hrest =>
      obtain rfl := Option.some.inj (hfragment.symm.trans hfragment')
      rw [ihbody hbody, ihrest hrest]

end Inlined

/-! ## All limits at once -/

section

variable {α β : Type}

/-- From a depth on, limits make no difference to a result; with smaller ones something is too deep.
It is said of a function of the limit, so that one computation is looked at with all limits at
once. -/
def Needs (run : Nat → Except Rejection α) (need : Nat) (result : Except Rejection α) : Prop :=
  ∀ limit, (need ≤ limit → run limit = result) ∧
    (limit < need → ∃ place, run limit = .error (.tooDeep place))

namespace Needs

variable {run : Nat → Except Rejection α} {need : Nat} {result : Except Rejection α}

theorem const (result : Except Rejection α) : Needs (fun _ => result) 0 result :=
  fun limit => ⟨fun _ => rfl, fun hlt => absurd hlt (Nat.not_lt_zero limit)⟩

theorem bind_error {rejection : Rejection} (h : Needs run need (.error rejection))
    (next : Nat → α → Except Rejection β) :
    Needs (fun limit => (run limit).bind (next limit)) need (.error rejection) := by
  refine fun limit => ⟨fun hle => ?_, fun hlt => ?_⟩
  · simp only [(h limit).1 hle]
    rfl
  · obtain ⟨place, hplace⟩ := (h limit).2 hlt
    refine ⟨place, ?_⟩
    simp only [hplace]
    rfl

/-- A step and what comes behind it need what the one and the other need; with a limit below both,
the first of them that is too deep is what is told. -/
theorem bind_ok {a : α} {need' : Nat} {next : Nat → α → Except Rejection β}
    {result : Except Rejection β} (h : Needs run need (.ok a))
    (hnext : Needs (fun limit => next limit a) need' result) :
    Needs (fun limit => (run limit).bind (next limit)) (max need need') result := by
  refine fun limit => ⟨fun hle => ?_, fun hlt => ?_⟩
  · simp only [(h limit).1 (Nat.le_trans (Nat.le_max_left _ _) hle)]
    exact (hnext limit).1 (Nat.le_trans (Nat.le_max_right _ _) hle)
  · rcases Nat.lt_or_ge limit need with hlt' | hge
    · obtain ⟨place, hplace⟩ := (h limit).2 hlt'
      refine ⟨place, ?_⟩
      simp only [hplace]
      rfl
    · have hlt' : limit < need' := by omega
      simp only [(h limit).1 hge]
      exact (hnext limit).2 hlt'

/-- What comes behind the comparison of a depth with the limit needs that depth. -/
theorem below {depth : Nat} {place : Position} (h : Needs run need result) :
    Needs (fun limit => if limit < depth then .error (.tooDeep place) else run limit)
      (max depth need) result := by
  intro limit
  by_cases hdepth : limit < depth
  · simp only [if_pos hdepth]
    exact ⟨fun hle => absurd hdepth (by omega), fun _ => ⟨place, rfl⟩⟩
  · simp only [if_neg hdepth]
    exact ⟨fun hle => (h limit).1 (by omega), fun hlt => (h limit).2 (by omega)⟩

/-- Where nothing is too deep, larger limits make no difference. -/
theorem stable (h : Needs run need result) {limit larger : Nat} (hle : limit ≤ larger)
    (hdeep : ∀ place, run limit ≠ .error (.tooDeep place)) : run larger = run limit := by
  rcases Nat.lt_or_ge limit need with hlt | hge
  · obtain ⟨place, hplace⟩ := (h limit).2 hlt
    exact absurd hplace (hdeep place)
  · rw [(h limit).1 hge, (h larger).1 (Nat.le_trans hge hle)]

end Needs

end

namespace Checker

/-- Selections at a depth are collected, with all limits at once: if they have a result, then they
can be written out, the written-out form is as deep as they need, and what is collected has no more
fields than it, or so many more. -/
def Measured (fragments : List Fragment) (selections : List Selection) (depth more : Nat)
    (run : Nat → Counting (List PlannedField)) : Prop :=
  ∀ count, ∃ need result, Needs (fun limit => run limit count) need result ∧
    ∀ fields last, result = .ok (fields, last) → ∃ inlined,
      Inlined fragments selections inlined ∧ need = Selection.deepestAll depth inlined ∧
      PlannedField.sizes fields ≤ Selection.countFieldsAll inlined + more

namespace Measured

variable {fragments : List Fragment} {selections others : List Selection} {depth more : Nat}
  {run run' : Nat → Counting (List PlannedField)}

theorem const {x : Counting (List PlannedField)}
    (h : ∀ count result, x count = .ok result →
      selections = [] ∧ PlannedField.sizes result.1 ≤ more) :
    Measured fragments selections depth more (fun _ => x) := by
  intro count
  refine ⟨0, x count, .const (x count), fun fields last hx => ?_⟩
  obtain ⟨rfl, hsizes⟩ := h count _ hx
  exact ⟨[], .nil, rfl, by simpa [Selection.countFieldsAll] using hsizes⟩

theorem rejected (rejection : Rejection) :
    Measured fragments selections depth more
      (fun _ => (throw rejection : Counting (List PlannedField))) :=
  const fun _ _ h => by cases h

/-- Selections behind others need the greater of the two depths, which is how `deepestAll` is
defined, and the number of fields adds up. -/
theorem append (h : Measured fragments selections depth 0 run)
    (h' : Measured fragments others depth 0 run') :
    Measured fragments (selections ++ others) depth 0 (fun limit => do
      let fields ← run limit
      let rest ← run' limit
      return fields ++ rest) := by
  intro count
  simp only [bind_counting]
  obtain ⟨need, result, hneeds, hfirst⟩ := h count
  cases result with
  | error rejection => exact ⟨need, _, hneeds.bind_error _, fun _ _ h => by cases h⟩
  | ok result =>
    obtain ⟨fields, middle⟩ := result
    obtain ⟨inlined, hinlined, rfl, hsizes⟩ := hfirst fields middle rfl
    obtain ⟨need', result', hneeds', hsecond⟩ := h' middle
    cases result' with
    | error rejection =>
      exact ⟨_, _, hneeds.bind_ok (hneeds'.bind_error _), fun _ _ h => by cases h⟩
    | ok result' =>
      obtain ⟨rest, last⟩ := result'
      obtain ⟨inlined', hinlined', rfl, hsizes'⟩ := hsecond rest last rfl
      refine ⟨_, _, hneeds.bind_ok (hneeds'.bind_ok (.const _)), fun fields' last' h => ?_⟩
      obtain ⟨rfl, rfl⟩ := Prod.mk.inj (Except.ok.inj h)
      refine ⟨_, hinlined.append hinlined', ?_, ?_⟩
      · rw [Selection.deepestAll_append, Nat.max_zero]
      · rw [Selection.countFieldsAll_append, PlannedField.sizes_append]
        dsimp only
        omega

/-- A step behind, which does not depend on the limit. It may add fields: the one of which something
is selected is not among those that are collected below it. -/
theorem after {added : Nat} {next : List PlannedField → Counting (List PlannedField)}
    (h : Measured fragments selections depth 0 run)
    (hnext : ∀ fields count result, next fields count = .ok result →
      PlannedField.sizes result.1 ≤ PlannedField.sizes fields + added) :
    Measured fragments selections depth added (fun limit => run limit >>= next) := by
  intro count
  simp only [bind_counting]
  obtain ⟨need, result, hneeds, hfirst⟩ := h count
  cases result with
  | error rejection => exact ⟨need, _, hneeds.bind_error _, fun _ _ h => by cases h⟩
  | ok result =>
    obtain ⟨fields, middle⟩ := result
    obtain ⟨inlined, hinlined, rfl, hsizes⟩ := hfirst fields middle rfl
    refine ⟨_, _, hneeds.bind_ok (.const _), fun fields' last h => ?_⟩
    have hsizes' := hnext _ _ _ h
    refine ⟨inlined, hinlined, Nat.max_zero _, ?_⟩
    dsimp only at hsizes'
    omega

/-- The use of a fragment is as deep as what the fragment selects, since it is at the same depth. -/
theorem spread {name : String} {place : Position} {fragment : Fragment}
    (hfragment : fragments.find? (·.name = name) = some fragment)
    (h : Measured fragments fragment.selections depth more run) :
    Measured fragments [.spread name place] depth more run := by
  intro count
  obtain ⟨need, result, hneeds, hresult⟩ := h count
  refine ⟨need, result, hneeds, fun fields last hok => ?_⟩
  obtain ⟨inlined, hinlined, hrest⟩ := hresult fields last hok
  exact ⟨inlined, .fragment hfragment hinlined, hrest⟩

/-- A field is counted, its depth is compared with the limit, and then comes what is selected of it,
one deeper. -/
theorem field {alias? : Option String} {name : String} {arguments : List Argument}
    {place : Position} (h : Measured fragments selections (depth + 1) 1 run) :
    Measured fragments [.field alias? name arguments selections place] depth 0 (fun limit => do
      countField place
      if limit < depth then throw (.tooDeep place) else run limit) := by
  intro count
  simp only [bind_counting]
  by_cases hcount : fieldLimit < count + 1
  · simp only [countField, if_pos hcount]
    exact ⟨0, .error (.tooManyFields place), .const _, fun _ _ h => by cases h⟩
  · simp only [countField, if_neg hcount]
    obtain ⟨need, result, hneeds, hresult⟩ := h (count + 1)
    simp only [Except.bind, ite_counting, throw_counting]
    refine ⟨_, result, hneeds.below, fun fields last hok => ?_⟩
    obtain ⟨inlined, hinlined, rfl, hsizes⟩ := hresult fields last hok
    refine ⟨_, .field hinlined .nil, ?_, ?_⟩
    · simp only [Selection.deepestAll, Selection.deepest, Nat.max_zero]
    · simpa only [Selection.countFieldsAll, Selection.countFields] using hsizes

end Measured

theorem Measured.merged {fragments : List Fragment} {selections : List Selection} {depth : Nat}
    {run : Nat → Counting (List PlannedField)} (h : Measured fragments selections depth 0 run) :
    Measured fragments selections depth 0 (fun limit => do
      let collected ← run limit
      PlannedField.merge collected) := by
  refine h.after fun fields count result hmerge => ?_
  exact PlannedField.sizes_merge (ok_of_lift hmerge).1

/-- What is checked with another limit. -/
def limited (checker : Checker) (limit : Nat) : Checker := { checker with depthLimit := limit }

variable {checker : Checker} {spread : Nat → Spreader}

@[simp] theorem limited_schema (limit : Nat) : (checker.limited limit).schema = checker.schema :=
  rfl

@[simp] theorem limited_bindings (limit : Nat) :
    (checker.limited limit).bindings = checker.bindings :=
  rfl

@[simp] theorem limited_fragments (limit : Nat) :
    (checker.limited limit).fragments = checker.fragments :=
  rfl

@[simp] theorem limited_depthLimit (limit : Nat) : (checker.limited limit).depthLimit = limit :=
  rfl

theorem measured_selected {name type : String} {place : Position} {depth : Nat}
    {selections : List Selection} {definition : TypeDef}
    (h : Measured checker.fragments selections (depth + 1) 0
      (fun limit => collectAll (checker.limited limit) (spread limit) definition (depth + 1)
        selections)) :
    Measured checker.fragments selections (depth + 1) 0
      (fun limit => selected (checker.limited limit) (spread limit) name place depth selections
        definition type) := by
  simp only [selected]
  cases definition.kind with
  | object fields =>
    cases selections with
    | nil => exact .rejected _
    | cons selection rest => exact h.merged
  | scalar | enumeration values =>
    cases selections with
    | nil =>
      refine .const fun count result hok => ?_
      obtain rfl := Except.ok.inj hok
      exact ⟨rfl, Nat.le_refl _⟩
    | cons selection rest => exact .rejected _
  | _ => exact .rejected _

mutual

theorem measured_collect
    (hspread : ∀ container depth name place, Measured checker.fragments [.spread name place] depth 0
      (fun limit => spread limit container depth name place))
    (container : TypeDef) (depth : Nat) (selection : Selection) :
    Measured checker.fragments [selection] depth 0
      (fun limit => collect (checker.limited limit) (spread limit) container depth selection) := by
  match selection with
  | .spread fragment place =>
    simp only [collect]
    exact hspread container depth fragment place
  | .inline _ place =>
    simp only [collect]
    exact .rejected _
  | .field alias? name arguments selections place =>
    simp only [collect_field, limited_schema, limited_bindings, limited_depthLimit]
    refine Measured.field ?_
    by_cases hname : name = PlannedField.typename
    · simp only [if_pos hname]
      refine .const fun count result hok => ?_
      obtain ⟨field, middle, hfield, hok⟩ := ok_of_bind_counting hok
      obtain rfl := Except.ok.inj hok
      obtain ⟨-, hnone, rfl⟩ := ok_of_typename (ok_of_lift hfield).1
      exact ⟨hnone, Nat.le_refl _⟩
    · simp only [if_neg hname]
      cases checker.schema.field? container.name name with
      | none => exact .rejected _
      | some definition =>
        cases ht : checker.schema.type? definition.type.underlying with
        | none =>
          simp only [ht]
          exact .rejected _
        | some typeDef =>
          simp only [ht]
          refine (measured_selected (measured_collectAll hspread typeDef (depth + 1)
            selections)).after fun fields count result hok => ?_
          obtain ⟨values, middle, -, hok⟩ := ok_of_bind_counting hok
          obtain rfl := Except.ok.inj hok
          rw [PlannedField.sizes_cons, PlannedField.size_eq]
          exact Nat.le_refl _

theorem measured_collectAll
    (hspread : ∀ container depth name place, Measured checker.fragments [.spread name place] depth 0
      (fun limit => spread limit container depth name place))
    (container : TypeDef) (depth : Nat) (selections : List Selection) :
    Measured checker.fragments selections depth 0
      (fun limit => collectAll (checker.limited limit) (spread limit) container depth
        selections) := by
  match selections with
  | [] =>
    simp only [collectAll]
    refine .const fun count result hok => ?_
    obtain rfl := Except.ok.inj hok
    exact ⟨rfl, Nat.le_refl _⟩
  | selection :: rest =>
    simp only [collectAll]
    exact (measured_collect hspread container depth selection).append
      (measured_collectAll hspread container depth rest)

end

/-- The induction is on the steps. The fragments are those of every limit, and so is the way through
them. -/
theorem measured_expand (steps : Nat) (path : List String) (container : TypeDef) (depth : Nat)
    (name : String) (place : Position) :
    Measured checker.fragments [.spread name place] depth 0
      (fun limit => (checker.limited limit).expand steps path container depth name place) := by
  induction steps generalizing path container depth name place with
  | zero =>
    simp only [expand, limited_fragments]
    split
    · exact .rejected _
    · cases checker.fragments.find? (·.name = name) with
      | none => exact .rejected _
      | some fragment =>
        dsimp only
        split <;> exact .rejected _
  | succ steps ih =>
    simp only [expand, limited_fragments]
    split
    · exact .rejected _
    · cases hfragment : checker.fragments.find? (·.name = name) with
      | none => exact .rejected _
      | some fragment =>
        dsimp only
        split
        · exact .rejected _
        · refine Measured.spread hfragment ?_
          exact measured_collectAll (ih (path ++ [name])) container depth fragment.selections

theorem measured_select (container : TypeDef) (selections : List Selection) :
    Measured checker.fragments selections 1 0
      (fun limit => (checker.limited limit).select container selections) :=
  (measured_collectAll (measured_expand checker.fragments.length []) container 1
    selections).merged

end Checker

/-! ## Documents -/

namespace Plan

open Checker

/-- An operation with all limits at once: from some depth on limits make no difference, and with
smaller ones it is rejected for being too deep. If it is accepted, then it can be written out, the
depth is that of the deepest field, and no more fields are planned than are written out. -/
theorem needs_ofOperation (schema : Schema) (fragments : List Fragment) (supplied : Members Json)
    (name? : Option String) (operation : Operation) :
    ∃ need result, Needs (fun limit => ofOperation schema fragments supplied limit name? operation)
        need result ∧
      ∀ plan, result = .ok plan → ∃ inlined, Inlined fragments operation.selections inlined ∧
        need = Selection.deepestAll 1 inlined ∧
        PlannedField.sizes plan.fields ≤ Selection.countFieldsAll inlined := by
  simp only [ofOperation]
  cases rootOf schema operation with
  | error rejection => exact ⟨0, _, .const (.error rejection), fun _ h => by cases h⟩
  | ok root =>
    cases operation.bindings supplied with
    | error rejection => exact ⟨0, _, .const (.error rejection), fun _ h => by cases h⟩
    | ok bindings =>
      let checker : Checker := ⟨schema, bindings, fragments, 0⟩
      have hselect : Measured checker.fragments operation.selections 1 0 fun limit =>
          (checker.limited limit).select root operation.selections :=
        measured_select root operation.selections
      obtain ⟨need, result, hneeds, hresult⟩ := hselect 0
      cases result with
      | error rejection => exact ⟨need, _, hneeds.bind_error _, fun _ h => by cases h⟩
      | ok result =>
        obtain ⟨fields, last⟩ := result
        obtain ⟨inlined, hinlined, rfl, hsizes⟩ := hresult fields last rfl
        refine ⟨_, _, hneeds.bind_ok (.const _), fun plan hplan => ?_⟩
        obtain rfl := Except.ok.inj hplan
        exact ⟨inlined, hinlined, Nat.max_zero _, hsizes⟩

theorem needs_ofDocument (schema : Schema) (document : Document) (operationName? : Option String)
    (supplied : Members Json) :
    ∃ need result, Needs (ofDocument schema document operationName? supplied) need result ∧
      ∀ plan, result = .ok plan → ∃ name? operation inlined,
        document.choose operationName? = .ok (name?, operation) ∧
        Inlined document.fragments operation.selections inlined ∧
        need = Selection.deepestAll 1 inlined ∧
        PlannedField.sizes plan.fields ≤ Selection.countFieldsAll inlined := by
  have hrun : ofDocument schema document operationName? supplied = fun limit =>
      (document.choose operationName?).bind fun chosen =>
        ofOperation schema document.fragments supplied limit chosen.1 chosen.2 := rfl
  rw [hrun]
  cases document.choose operationName? with
  | error rejection => exact ⟨0, _, .const (.error rejection), fun _ h => by cases h⟩
  | ok chosen =>
    obtain ⟨name?, operation⟩ := chosen
    obtain ⟨need, result, hneeds, hresult⟩ :=
      needs_ofOperation schema document.fragments supplied name? operation
    refine ⟨need, result, hneeds, fun plan hplan => ?_⟩
    obtain ⟨inlined, hinlined, hrest⟩ := hresult plan hplan
    exact ⟨name?, operation, inlined, rfl, hinlined, hrest⟩

/-- The limits of an operation. Where it is not too deep, larger limits for the depth make no
difference. If it is accepted with some limit, then its fragments can be written out in one way;
with limits from the depth of the deepest field on it is accepted with the same result, and with
smaller ones it is too deep; and with every copy of a fragment it selects at most 10,000 fields, so
that no more are planned. While it is planned no more fields than that are checked, whatever comes
of it, and so many are if it is rejected for having more. They are the first of the fields that are
written out, and all of them if it is accepted. -/
theorem ofDocument_limits (schema : Schema) (document : Document) (operationName? : Option String)
    (supplied : Members Json) :
    (∀ limit larger, limit ≤ larger →
      (∀ place,
        ofDocument schema document operationName? supplied limit ≠ .error (.tooDeep place)) →
      ofDocument schema document operationName? supplied larger =
        ofDocument schema document operationName? supplied limit) ∧
    (∀ limit plan, ofDocument schema document operationName? supplied limit = .ok plan →
      ∃ name? operation inlined, document.choose operationName? = .ok (name?, operation) ∧
        (∀ other, Inlined document.fragments operation.selections other ↔ other = inlined) ∧
        (∀ other,
          (Selection.deepestAll 1 inlined ≤ other →
            ofDocument schema document operationName? supplied other = .ok plan) ∧
          (other < Selection.deepestAll 1 inlined →
            ∃ place, ofDocument schema document operationName? supplied other =
              .error (.tooDeep place))) ∧
        Selection.countFieldsAll inlined ≤ 10000 ∧ PlannedField.sizes plan.fields ≤ 10000) ∧
    ∀ limit, ∃ checked : List Position,
      ofDocumentRecorded schema document operationName? supplied limit =
        (ofDocument schema document operationName? supplied limit, checked) ∧
      checked.length ≤ 10000 ∧
      (∀ place,
        ofDocument schema document operationName? supplied limit = .error (.tooManyFields place) →
        checked.length = 10000) ∧
      ∀ name? operation inlined, document.choose operationName? = .ok (name?, operation) →
        Inlined document.fragments operation.selections inlined →
        checked <+: Selection.placesAll inlined ∧
          ∀ plan, ofDocument schema document operationName? supplied limit = .ok plan →
            checked = Selection.placesAll inlined := by
  have hrecord (limit : Nat) : ∃ checked,
      ofDocumentRecorded schema document operationName? supplied limit =
        (ofDocument schema document operationName? supplied limit, checked) :=
    ⟨_, Prod.ext (ofDocumentRecorded_eq schema document operationName? supplied limit) rfl⟩
  obtain ⟨need, result, hneeds, hresult⟩ :=
    needs_ofDocument schema document operationName? supplied
  refine ⟨fun limit larger hle hdeep => hneeds.stable hle hdeep, fun limit plan hplan => ?_,
    fun limit => ?_⟩
  · have hok : result = .ok plan := by
      rcases Nat.lt_or_ge limit need with hlt | hge
      · obtain ⟨place, hplace⟩ := (hneeds limit).2 hlt
        rw [hplan] at hplace
        cases hplace
      · exact ((hneeds limit).1 hge).symm.trans hplan
    obtain ⟨name?, operation, inlined, hchoose, hinlined, rfl, hsizes⟩ := hresult plan hok
    have hcount : Selection.countFieldsAll inlined ≤ fieldLimit := by
      obtain ⟨checked, hchecked⟩ := hrecord limit
      obtain ⟨hlength, -, hfields⟩ := follows_ofDocument hchecked
      obtain ⟨-, hall⟩ := hfields name? operation inlined hchoose hinlined
      rw [← Selection.length_placesAll, ← hall plan hplan]
      exact hlength
    refine ⟨name?, operation, inlined, hchoose, fun other => ⟨fun h => h.unique hinlined, ?_⟩,
      fun other => ⟨fun hle => ((hneeds other).1 hle).trans hok, (hneeds other).2⟩, hcount,
      Nat.le_trans hsizes hcount⟩
    rintro rfl
    exact hinlined
  · obtain ⟨checked, hchecked⟩ := hrecord limit
    exact ⟨checked, hchecked, follows_ofDocument hchecked⟩

end Plan

end FeedGraph
