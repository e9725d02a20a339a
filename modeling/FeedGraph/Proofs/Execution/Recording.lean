import FeedGraph.Execution.Executor
import FeedGraph.Proofs.Execution.Turns
import FeedGraph.Proofs.Plan.Merging

/-!
# Recording: what is asked while a plan is executed

An execution asks for the values of fields, and what comes of it depends on the state that the
resolvers find. `Executor.executeRecorded` executes a plan and records all that is asked, each with
its outcome. Recording is all that it does besides: `Executor.map_executeRecorded` says that without
the record it is the same fiber as `Executor.execute`, so that its runs are the runs of the latter.
-/

namespace FeedGraph

/-- What a resolver is asked for: a field of an object, with the place in the data where its value
belongs. -/
structure Inquiry where
  /-- the name of the object's type -/
  type : String
  /-- the object -/
  parent : Json
  /-- where in the data the value of the field belongs -/
  path : Path
  /-- the field -/
  field : PlannedField

/-- What was asked, each with its outcome. The order is that of the document, and not that in which
outcomes came. -/
abbrev Log : Type := List (Inquiry × Outcome)

/-- A result, and what was asked on the way to it. -/
structure Recorded (α : Type) where
  /-- the result -/
  result : α
  /-- what was asked -/
  log : Log

namespace Recorded

variable {α β : Type}

def map (f : α → β) (recorded : Recorded α) : Recorded β := ⟨f recorded.result, recorded.log⟩

/-- Results that become one; what was asked for any of them was asked for it, one part after the
other. -/
def gather (f : List α → β) (parts : List (Recorded α)) : Recorded β :=
  ⟨f (parts.map (·.result)), parts.flatMap (·.log)⟩

/-- One more thing that was asked, in front of what was asked because of its outcome. -/
def after (inquiry : Inquiry) (outcome : Outcome) (recorded : Recorded α) : Recorded α :=
  ⟨recorded.result, (inquiry, outcome) :: recorded.log⟩

end Recorded

namespace Executor

variable {σ : Type}

/-- `Executor.complete` with a record. Completing asks for nothing by itself, so that the record is
that of what is selected of objects. -/
def completeRecorded (schema : Schema) (site : Site)
    (select : String → Json → Path → Fiber σ (Recorded Completion)) :
    TypeRef → Json → Path → Fiber σ (Recorded Completion)
  | type, .null, path =>
    if type.nullable then .done ⟨.value .null, []⟩
    else .done ⟨.failed ⟨.null site.type site.field, site.position, path⟩, []⟩
  | .list item nullable, value, path =>
    match value with
    | .array items =>
      (Fiber.all (items.zipIdx.map fun (item', index) =>
          completeRecorded schema site select item item' (path ++ [.index index]))).map
        (Recorded.gather fun completions => (Completion.list completions).absorb nullable)
    | other =>
      .done ⟨(Completion.failed
        ⟨.notList site.type site.field other.kind, site.position, path⟩).absorb nullable, []⟩
  | .named name nullable, value, path =>
    if schema.isLeaf name then .done ⟨.value value, []⟩
    else
      match value with
      | .object _ => (select name value path).map (Recorded.map (·.absorb nullable))
      | other =>
        .done ⟨(Completion.failed
          ⟨.notObject name site.type site.field other.kind, site.position, path⟩).absorb nullable,
          []⟩

mutual

/-- `Executor.field` with a record: the inquiry with the outcome that the resolver ends with, and
behind it what is asked to complete that. -/
def fieldRecorded (executor : Executor σ) (type : String) (parent : Json) (path : Path) :
    PlannedField → Fiber σ (Recorded Completion)
  | ⟨alias?, name, typeRef, arguments, fields, position⟩ =>
    if name = PlannedField.typename then .done ⟨.value (.string type), []⟩
    else
      let here := path ++ [.field (alias?.getD name)]
      let inquiry : Inquiry :=
        ⟨type, parent, here, ⟨alias?, name, typeRef, arguments, fields, position⟩⟩
      .read fun state =>
        let (resolution, state) := executor.resolvers.resolve type name parent arguments state
        .write state <| resolution.fiber.bind fun outcome =>
          match outcome with
          | .ok value =>
            (completeRecorded executor.schema ⟨type, name, position⟩
              (fun typeName object path =>
                (Fiber.all (executor.fieldsRecorded typeName object path fields)).map
                  (Recorded.gather (Completion.object (fields.map (·.output)))))
              typeRef value here).map (Recorded.after inquiry outcome)
          | .error fault =>
            .done ⟨(Completion.failed ⟨.fault fault, position, here⟩).absorb typeRef.nullable,
              [(inquiry, outcome)]⟩

/-- `Executor.fields` with a record. -/
def fieldsRecorded (executor : Executor σ) (type : String) (parent : Json) (path : Path) :
    List PlannedField → List (Fiber σ (Recorded Completion))
  | [] => []
  | first :: rest =>
    executor.fieldRecorded type parent path first ::
      executor.fieldsRecorded type parent path rest

end

/-- `Executor.execute` with a record. -/
def executeRecorded (executor : Executor σ) (plan : Plan) : Fiber σ (Recorded Response) :=
  let root := (executor.schema.root? plan.kind).getD ""
  let fibers := executor.fieldsRecorded root (.object []) [] plan.fields
  let parts := match plan.kind with
    | .mutation => Fiber.sequence fibers
    | _ => Fiber.all fibers
  parts.map (Recorded.gather fun completions =>
    let completion := Completion.object (plan.fields.map (·.output)) completions
    ⟨some (completion.value?.getD .null), completion.failures.map .ofFailure⟩)

/-! ## Lists of fibers -/

theorem completeItems_eq_map {complete : Nat → Json → Fiber σ Completion} (start : Nat)
    (items : List Json) :
    completeItems complete start items =
      (items.zipIdx start).map fun (item, index) => complete index item := by
  induction items generalizing start with
  | nil => rfl
  | cons item rest ih => rw [completeItems, ih, List.zipIdx_cons, List.map_cons]

theorem fields_eq_map (executor : Executor σ) (type : String) (parent : Json) (path : Path)
    (fields : List PlannedField) :
    executor.fields type parent path fields = fields.map (executor.field type parent path) := by
  induction fields with
  | nil => rw [Executor.fields, List.map_nil]
  | cons first rest ih => rw [Executor.fields, ih, List.map_cons]

theorem fieldsRecorded_eq_map (executor : Executor σ) (type : String) (parent : Json) (path : Path)
    (fields : List PlannedField) :
    executor.fieldsRecorded type parent path fields =
      fields.map (executor.fieldRecorded type parent path) := by
  induction fields with
  | nil => rw [fieldsRecorded, List.map_nil]
  | cons first rest ih => rw [fieldsRecorded, ih, List.map_cons]

/-- The fiber that resolves what is selected of an object, with a record. -/
def objectRecorded (executor : Executor σ) (selected : List PlannedField) (type : String)
    (parent : Json) (path : Path) : Fiber σ (Recorded Completion) :=
  (Fiber.all (selected.map (executor.fieldRecorded type parent path))).map
    (Recorded.gather (Completion.object (selected.map (·.output))))

/-- The name of a type is known without asking; any other field is asked for, and its value is
completed. It is the recorded counterpart of `Executor.field_eq`. -/
theorem fieldRecorded_eq (executor : Executor σ) (type : String) (parent : Json) (path : Path)
    (asked : PlannedField) :
    executor.fieldRecorded type parent path asked =
      if asked.name = PlannedField.typename then .done ⟨.value (.string type), []⟩
      else
        let here := path ++ [.field asked.output]
        .read fun state =>
          let (resolution, state) :=
            executor.resolvers.resolve type asked.name parent asked.arguments state
          .write state <| resolution.fiber.bind fun outcome =>
            match outcome with
            | .ok value =>
              (completeRecorded executor.schema ⟨type, asked.name, asked.position⟩
                (executor.objectRecorded asked.fields) asked.type value here).map
                (Recorded.after ⟨type, parent, here, asked⟩ outcome)
            | .error fault =>
              .done ⟨(Completion.failed ⟨.fault fault, asked.position, here⟩).absorb
                asked.type.nullable, [(⟨type, parent, here, asked⟩, outcome)]⟩ := by
  obtain ⟨alias?, name, typeRef, arguments, selected, position⟩ := asked
  rw [fieldRecorded]
  simp only [fieldsRecorded_eq_map]
  rfl

/-- The record of results that become one can be left out of them or of what they become; the
results do not depend on it. -/
theorem map_result_gather {α β : Type} {f : List α → β}
    (fiber : Fiber σ (List (Recorded α))) :
    (fiber.map (Recorded.gather f)).map (·.result) =
      (fiber.map (List.map (·.result))).map f := by
  rw [Fiber.map_map, Fiber.map_map]
  rfl

/-! ## Without the record -/

/-- A value is completed in the same way, if what is selected of it is. -/
theorem map_completeRecorded {schema : Schema} {site : Site}
    {select : String → Json → Path → Fiber σ Completion}
    {selectRecorded : String → Json → Path → Fiber σ (Recorded Completion)}
    (hselect : ∀ name object path,
      (selectRecorded name object path).map (·.result) = select name object path)
    (type : TypeRef) (value : Json) (path : Path) :
    (completeRecorded schema site selectRecorded type value path).map (·.result) =
      complete schema site select type value path := by
  induction type generalizing value path with
  | named name nullable =>
    cases value with
    | null => cases nullable <;> rfl
    | object members =>
      simp only [completeRecorded, complete]
      split
      · rfl
      · rw [← hselect, Fiber.map_map, Fiber.map_map]
        rfl
    | _ =>
      simp only [completeRecorded, complete]
      split <;> rfl
  | list item nullable ih =>
    cases value with
    | null => cases nullable <;> rfl
    | array items =>
      rw [completeRecorded, complete, completeItems_eq_map, map_result_gather, ← Fiber.all_map,
        List.map_map]
      congr 3
      funext ⟨item', index⟩
      exact ih item' _
    | _ => rfl

/-- A field is resolved and completed in the same way, by induction on what is selected of it. The
resolver is asked in the same state on both sides. -/
theorem map_fieldRecorded (executor : Executor σ) (field : PlannedField) (type : String)
    (parent : Json) (path : Path) :
    (executor.fieldRecorded type parent path field).map (·.result) =
      executor.field type parent path field := by
  induction field using PlannedField.induction generalizing type parent path with
  | step field ih =>
    obtain ⟨alias?, name, typeRef, arguments, fields, position⟩ := field
    rw [fieldRecorded, Executor.field]
    split
    · rfl
    · simp only [Fiber.map_read, Fiber.map_write, Fiber.map_bind]
      congr 1
      funext state
      congr 1
      congr 1
      funext outcome
      cases outcome with
      | error fault => rfl
      | ok value =>
        rw [Fiber.map_map]
        refine map_completeRecorded (fun name object path => ?_) typeRef value _
        rw [map_result_gather, ← Fiber.all_map, fieldsRecorded_eq_map, fields_eq_map, List.map_map]
        congr 2
        exact List.map_congr_left fun below hbelow => ih below hbelow name object path

/-- Recording does not change how a plan is executed: the fibers are equal once the record is left
out, with all their pauses. -/
theorem map_executeRecorded (executor : Executor σ) (plan : Plan) :
    (executor.executeRecorded plan).map (·.result) = executor.execute plan := by
  have hfields : ∀ type parent path,
      (executor.fieldsRecorded type parent path plan.fields).map (Fiber.map (·.result)) =
        executor.fields type parent path plan.fields := by
    intro type parent path
    rw [fieldsRecorded_eq_map, fields_eq_map, List.map_map]
    exact List.map_congr_left fun field _ => map_fieldRecorded executor field type parent path
  rw [executeRecorded, execute, map_result_gather, ← hfields]
  cases plan.kind with
  | mutation => rw [Fiber.sequence_map]
  | _ => rw [Fiber.all_map]

/-- A run with a record has the response of the run without. -/
theorem run_executeRecorded (executor : Executor σ) (plan : Plan) (state : σ) :
    (executor.execute plan).run state =
      (((executor.executeRecorded plan).run state).1.result,
        ((executor.executeRecorded plan).run state).2) := by
  rw [← map_executeRecorded, Fiber.run_map]

end Executor

end FeedGraph
