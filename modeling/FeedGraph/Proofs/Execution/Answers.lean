import FeedGraph.Proofs.Execution.Completions
import FeedGraph.Proofs.Execution.Evaluation
import FeedGraph.Proofs.Plan.Typing

/-!
# Answers: the data has the shape that is asked for

`FieldAnswer` and `ValueAnswer` say what may be answered for a field and for a value of a type, with
one rule for each kind of type: null where the type allows it, what was resolved for a leaf, as many
items as were resolved for a list, and for an object the fields that are selected of it, in their
order. The rules do not say when a value that may be null is null; that is another matter.

The main statement is `Executor.execute_answers`: whatever the resolvers do, the data of an accepted
operation is null or consists of answers to what it selects.
-/

namespace FeedGraph

section

variable (schema : Schema) (outcome : Inquiry → Outcome)

mutual

/-- What may be answered for a field of an object, given the outcomes of inquiries. A fault may be
answered with null, if the type allows it. -/
inductive FieldAnswer : String → Json → Path → PlannedField → Json → Prop where
  /-- the name of the object's type -/
  | typename {type : String} {parent : Json} {path : Path} {field : PlannedField} :
      field.name = PlannedField.typename → FieldAnswer type parent path field (.string type)
  /-- an answer for the value that was resolved -/
  | resolved {type : String} {parent : Json} {path : Path} {field : PlannedField}
      {value answer : Json} : field.name ≠ PlannedField.typename →
      outcome ⟨type, parent, path ++ [.field field.output], field⟩ = .ok value →
      ValueAnswer field.fields field.type value (path ++ [.field field.output]) answer →
        FieldAnswer type parent path field answer
  /-- null if there is no value and null is allowed -/
  | fault {type : String} {parent : Json} {path : Path} {field : PlannedField} {fault : Fault} :
      field.name ≠ PlannedField.typename →
      outcome ⟨type, parent, path ++ [.field field.output], field⟩ = .error fault →
      field.type.nullable = true → FieldAnswer type parent path field .null

/-- What may be answered for a resolved value of a type, when some fields are selected of it. There
is no rule for a value that does not fit its type but null, where that is allowed. -/
inductive ValueAnswer : List PlannedField → TypeRef → Json → Path → Json → Prop where
  /-- of null, null itself, if it is allowed -/
  | null {selected : List PlannedField} {type : TypeRef} {path : Path} :
      type.nullable = true → ValueAnswer selected type .null path .null
  /-- of a leaf, the value itself -/
  | leaf {selected : List PlannedField} {name : String} {nullable : Bool} {value : Json}
      {path : Path} : schema.isLeaf name = true → value ≠ .null →
        ValueAnswer selected (.named name nullable) value path value
  /-- of a list, an answer for each item -/
  | list {selected : List PlannedField} {item : TypeRef} {nullable : Bool} {items : List Json}
      {path : Path} {answers : List Json} : items.length = answers.length →
      (∀ value index answer, ((value, index), answer) ∈ items.zipIdx.zip answers →
        ValueAnswer selected item value (path ++ [.index index]) answer) →
        ValueAnswer selected (.list item nullable) (.array items) path (.array answers)
  /-- null in place of a list, if it is allowed -/
  | noList {selected : List PlannedField} {item : TypeRef} {value : Json} {path : Path} :
      ValueAnswer selected (.list item true) value path .null
  /-- of an object, an answer for each field that is selected, under its output name -/
  | object {selected : List PlannedField} {name : String} {nullable : Bool}
      {members : List (String × Json)} {path : Path} {answers : List Json} :
      schema.IsObject name → selected.length = answers.length →
      (∀ field answer, (field, answer) ∈ selected.zip answers →
        FieldAnswer name (.object members) path field answer) →
        ValueAnswer selected (.named name nullable) (.object members) path
          (.object ((selected.map PlannedField.output).zip answers))
  /-- null in place of an object, if it is allowed -/
  | noObject {selected : List PlannedField} {name : String} {value : Json} {path : Path} :
      schema.IsObject name → ValueAnswer selected (.named name true) value path .null

end

end

/-! ## Evaluations are answers -/

namespace Evaluation

variable {schema : Schema} {outcome : Inquiry → Outcome}

/-- The value of an object, if it has one: a value for each field, under its output name. Output
names differ, so no value replaces another. -/
theorem object_eq_some {selected : List PlannedField} {type : String} {parent json : Json}
    {path : Path} (hnodup : (selected.map PlannedField.output).Nodup)
    (h : (object schema outcome selected type parent path).value? = some json) :
    ∃ answers, json = .object ((selected.map PlannedField.output).zip answers) ∧
      List.Forall₂ (fun asked answer =>
        (field schema outcome type parent path asked).value? = some answer) selected answers := by
  obtain ⟨answers, rfl, hall⟩ := Completion.object_eq_some (by simp) hnodup h
  exact ⟨answers, rfl, (List.forall₂_map_left_iff).mp hall⟩

/-- What becomes of a value is an answer for it, if that is so of what is selected of objects. The
cases are those of `value_induction`, and in each that has a value there is a rule for it. -/
theorem valueAnswer_complete {site : Executor.Site} {selected : List PlannedField} {type : TypeRef}
    (hselect : ∀ nullable members path json, schema.IsObject type.underlying →
      (object schema outcome selected type.underlying (.object members) path).value? = some json →
        ValueAnswer schema outcome selected (.named type.underlying nullable) (.object members) path
          json)
    (htype : schema.isLeaf type.underlying = true ∨ schema.IsObject type.underlying)
    {value : Json} {path : Path} {json : Json}
    (h : (complete schema site (object schema outcome selected) type value path).value? =
      some json) :
    ValueAnswer schema outcome selected type value path json := by
  induction type, value, path using value_induction schema generalizing json with
  | null type path =>
    rw [complete_null] at h
    cases hnull : type.nullable with
    | true =>
      rw [hnull, if_pos rfl] at h
      obtain rfl := Option.some.inj h
      exact .null hnull
    | false =>
      rw [hnull, if_neg Bool.false_ne_true] at h
      cases h
  | array item nullable items path ih =>
    rw [complete_array] at h
    rcases Completion.absorb_eq_some h with h | ⟨-, rfl, rfl⟩
    · obtain ⟨answers, rfl, hall⟩ := Completion.list_eq_some h
      have hall := List.forall₂_map_left_iff.mp hall
      have hlength : items.length = answers.length := by simpa using hall.length_eq
      refine .list hlength fun value index answer hmem => ?_
      exact ih (value, index) (List.of_mem_zip hmem).1 hselect htype
        ((List.forall₂_iff_zip.mp hall).2 hmem)
    · exact .noList
  | notList item nullable value path hnull hlist =>
    rw [complete_notList hnull hlist] at h
    obtain ⟨rfl, rfl⟩ := Completion.absorb_failed_eq_some h
    exact .noList
  | leaf name nullable value path hnull hleaf =>
    rw [complete_leaf hnull hleaf] at h
    obtain rfl := Option.some.inj h
    exact .leaf hleaf hnull
  | object name nullable members path hleaf =>
    have hobject := htype.resolve_left fun hleaf' => by simp [TypeRef.underlying, hleaf] at hleaf'
    rw [complete_object hleaf] at h
    rcases Completion.absorb_eq_some h with h | ⟨-, rfl, rfl⟩
    · exact hselect nullable members path json hobject h
    · exact .noObject hobject
  | notObject name nullable value path hnull hleaf hobject =>
    have hobject' := htype.resolve_left fun hleaf' => by simp [TypeRef.underlying, hleaf] at hleaf'
    rw [complete_notObject hnull hleaf hobject] at h
    obtain ⟨rfl, rfl⟩ := Completion.absorb_failed_eq_some h
    exact .noObject hobject'

/-- What becomes of a declared field is an answer for it. The induction is on what is selected; that
output names differ is needed for the members of objects to stay apart. -/
theorem fieldAnswer_field {asked : PlannedField} {type : String}
    (hdeclared : asked.Throughout (Declared schema) type)
    (hdistinct : PlannedField.DistinctOutputs asked.fields) {parent : Json} {path : Path}
    {json : Json} (h : (field schema outcome type parent path asked).value? = some json) :
    FieldAnswer schema outcome type parent path asked json := by
  induction asked using PlannedField.induction generalizing type parent path json with
  | step asked ih =>
    rw [field_eq] at h
    split at h
    · next hname =>
      obtain rfl := Option.some.inj h
      exact .typename hname
    · next hname =>
      cases houtcome : outcome ⟨type, parent, path ++ [.field asked.output], asked⟩ with
      | error fault =>
        rw [houtcome] at h
        obtain ⟨hnull, rfl⟩ := Completion.absorb_failed_eq_some h
        exact .fault hname houtcome hnull
      | ok value =>
        rw [houtcome] at h
        have htype : schema.isLeaf asked.type.underlying = true ∨
            schema.IsObject asked.type.underlying := by
          cases hdeclared.here with
          | typename hname' => exact absurd hname' hname
          | leaf _ _ _ _ _ hleaf => exact .inl hleaf
          | object _ _ _ _ _ hobject => exact .inr hobject
        refine .resolved hname houtcome (valueAnswer_complete ?_ htype h)
        intro nullable members path json hobject hjson
        obtain ⟨answers, rfl, hall⟩ := object_eq_some hdistinct.nodup hjson
        refine .object hobject hall.length_eq fun below answer hmem => ?_
        have hbelow := (List.of_mem_zip hmem).1
        exact ih below hbelow (hdeclared.descend below hbelow) (hdistinct.inner below hbelow)
          ((List.forall₂_iff_zip.mp hall).2 hmem)

end Evaluation

namespace Executor

variable {σ : Type}

/-- The response to an accepted operation has data, which is null or an object with an answer for
each field that is selected, in order and under its output name. The outcomes that the answers go by
are those that were recorded in the execution itself. -/
theorem execute_answers (executor : Executor σ) {document : Document}
    {operationName? : Option String} {supplied : Members Json} {depthLimit : Nat} {plan : Plan}
    (h : Plan.ofDocument executor.schema document operationName? supplied depthLimit = .ok plan)
    (state : σ) :
    let recorded := ((executor.executeRecorded plan).run state).1
    ((executor.execute plan).run state).1 = recorded.result ∧
      recorded.log.Agrees recorded.log.outcome ∧
      ∃ root data, executor.schema.root? plan.kind = some root ∧
        recorded.result.data? = some data ∧
        (data ≠ .null → ∃ answers,
          data = .object ((plan.fields.map PlannedField.output).zip answers) ∧
            List.Forall₂ (FieldAnswer executor.schema recorded.log.outcome root (.object []) [])
              plan.fields answers) := by
  intro recorded
  obtain ⟨root, hroot, hdistinct, hdeclared⟩ := Plan.declared_ofDocument h
  obtain ⟨hnodup, hresponse⟩ := (ends_executeRecorded executor hdistinct).run state
  have hlog := Log.agrees_outcome hnodup
  have hresponse := hresponse recorded.log.outcome hlog
  refine ⟨by rw [run_executeRecorded], hlog, root, _, hroot, by rw [← hresponse]; rfl, ?_⟩
  intro hdata
  rw [hroot, Option.getD_some] at hdata ⊢
  cases hvalue : (Evaluation.object executor.schema recorded.log.outcome plan.fields root
      (.object []) []).value? with
  | none =>
    rw [hvalue] at hdata
    exact absurd rfl hdata
  | some json =>
    obtain ⟨answers, rfl, hall⟩ := Evaluation.object_eq_some hdistinct.nodup hvalue
    refine ⟨answers, rfl, List.forall₂_iff_zip.mpr ⟨hall.length_eq, fun {field answer} hmem => ?_⟩⟩
    have hfield := (List.of_mem_zip hmem).1
    exact Evaluation.fieldAnswer_field (hdeclared field hfield) (hdistinct.inner field hfield)
      ((List.forall₂_iff_zip.mp hall).2 hmem)

end Executor

namespace Concerts

/-- A concert whose venue has no name, and one of whose acts is missing. -/
def gala : Json :=
  .object [("title", .string "Gala"), ("venue", .object [("name", .null)]),
    ("acts", .array [.object [("title", .string "Duo")], .null])]

/-- Answers every request for a concert with the gala, after two rounds, and counts the requests. -/
def executor : Executor Nat where
  schema := schema
  resolvers := ResolverTable.empty.register "Query" "concert" fun _ _ count =>
    (.deferred (.delay 2 (.done (.ok gala))), count + 1)

/-- What is answered has the shape of the plan: an instance of the general theorem, for a request
with an alias, a fragment and a list. -/
theorem gala_answers :
    Plan.ofDocument executor.schema document none [] 16 = .ok plan ∧
    let recorded := ((executor.executeRecorded plan).run 0).1
    ((executor.execute plan).run 0).1 = recorded.result ∧
      recorded.log.Agrees recorded.log.outcome ∧
      ∃ root data, executor.schema.root? plan.kind = some root ∧
        recorded.result.data? = some data ∧
        (data ≠ .null → ∃ answers,
          data = .object ((plan.fields.map PlannedField.output).zip answers) ∧
            List.Forall₂ (FieldAnswer executor.schema recorded.log.outcome root (.object []) [])
              plan.fields answers) :=
  ⟨ofDocument_eq, Executor.execute_answers executor ofDocument_eq 0⟩

/-- Venue and acts are null, the rest is as it was resolved. -/
example : ((executor.execute plan).run 0).1.data? =
    some (.object [("c", .object [("title", .string "Gala"), ("__typename", .string "Concert"),
      ("venue", .null), ("acts", .null)])]) := by
  rfl

end Concerts

end FeedGraph
