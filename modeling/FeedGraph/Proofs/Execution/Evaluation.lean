import FeedGraph.Proofs.Execution.Branches
import FeedGraph.Proofs.Execution.Recording

/-!
# Evaluation: what comes of outcomes

Once it is known what comes of every inquiry, nothing about an execution depends on states or turns
any more. `Evaluation.fields` walks through what is selected, one field after the other, and takes
outcomes as they are given.

The main statement is `Executor.ends_executeRecorded`: however an execution ends, its response is
the evaluation of any outcomes that are those it has recorded, and no two inquiries of the record
are for the same place in the data. The second part says that there are such outcomes: the record
can be looked up by path (`Log.outcome`).
-/

namespace FeedGraph

namespace Evaluation

variable (schema : Schema) (outcome : Inquiry → Outcome)

/-- Shapes a value as its type says. What comes of what is selected of an object is a parameter,
which keeps the recursion on the type. It is `Executor.complete` without fibers. -/
def complete (site : Executor.Site) (select : String → Json → Path → Completion) :
    TypeRef → Json → Path → Completion
  | type, .null, path =>
    if type.nullable then .value .null
    else .failed ⟨.null site.type site.field, site.position, path⟩
  | .list item nullable, value, path =>
    match value with
    | .array items =>
      (Completion.list (items.zipIdx.map fun (item', index) =>
        complete site select item item' (path ++ [.index index]))).absorb nullable
    | other =>
      (Completion.failed
        ⟨.notList site.type site.field other.kind, site.position, path⟩).absorb nullable
  | .named name nullable, value, path =>
    if schema.isLeaf name then .value value
    else
      match value with
      | .object _ => (select name value path).absorb nullable
      | other =>
        (Completion.failed
          ⟨.notObject name site.type site.field other.kind, site.position, path⟩).absorb nullable

mutual

/-- What becomes of a field of an object, by recursion on what is selected below it. The outcome of
its inquiry is looked up, where `Executor.field` asks a resolver. -/
def field (type : String) (parent : Json) (path : Path) : PlannedField → Completion
  | ⟨alias?, name, typeRef, arguments, selected, position⟩ =>
    if name = PlannedField.typename then .value (.string type)
    else
      let here := path ++ [.field (alias?.getD name)]
      match outcome ⟨type, parent, here, ⟨alias?, name, typeRef, arguments, selected, position⟩⟩ with
      | .ok value =>
        complete schema ⟨type, name, position⟩
          (fun typeName object path =>
            Completion.object (selected.map (·.output)) (fields typeName object path selected))
          typeRef value here
      | .error fault => (Completion.failed ⟨.fault fault, position, here⟩).absorb typeRef.nullable

/-- What becomes of some fields of an object. -/
def fields (type : String) (parent : Json) (path : Path) : List PlannedField → List Completion
  | [] => []
  | first :: rest => field type parent path first :: fields type parent path rest

end

/-- What becomes of what is selected of an object. -/
def object (selected : List PlannedField) (type : String) (parent : Json) (path : Path) :
    Completion :=
  Completion.object (selected.map (·.output)) (selected.map (field schema outcome type parent path))

/-- The response to a plan, with an empty object in place of the root. It does not tell queries from
mutations, since nothing depends on an order here. -/
def response (plan : Plan) : Response :=
  let root := (schema.root? plan.kind).getD ""
  let completion := object schema outcome plan.fields root (.object []) []
  ⟨some (completion.value?.getD .null), completion.failures.map .ofFailure⟩

variable {schema outcome}

theorem fields_eq_map (type : String) (parent : Json) (path : Path)
    (selected : List PlannedField) :
    fields schema outcome type parent path selected =
      selected.map (field schema outcome type parent path) := by
  induction selected with
  | nil => rw [fields, List.map_nil]
  | cons first rest ih => rw [fields, ih, List.map_cons]

/-- The name of a type is known without asking; any other field is asked for, and its value is
completed. This is `field` as an equation about any planned field, with `object` in place of the
local recursion. -/
theorem field_eq (type : String) (parent : Json) (path : Path) (asked : PlannedField) :
    field schema outcome type parent path asked =
      if asked.name = PlannedField.typename then .value (.string type)
      else
        match outcome ⟨type, parent, path ++ [.field asked.output], asked⟩ with
        | .ok value =>
          complete schema ⟨type, asked.name, asked.position⟩ (object schema outcome asked.fields)
            asked.type value (path ++ [.field asked.output])
        | .error fault =>
          (Completion.failed
            ⟨.fault fault, asked.position, path ++ [.field asked.output]⟩).absorb
              asked.type.nullable := by
  obtain ⟨alias?, name, typeRef, arguments, selected, position⟩ := asked
  rw [field]
  simp only [fields_eq_map]
  rfl

/-! ### The cases of a value and its type -/

section

variable {site : Executor.Site} {select : String → Json → Path → Completion} {item : TypeRef}
  {name : String} {nullable : Bool} {value : Json} {path : Path}

theorem complete_null (type : TypeRef) :
    complete schema site select type .null path =
      if type.nullable then .value .null
      else .failed ⟨.null site.type site.field, site.position, path⟩ := by
  rw [complete]

theorem complete_array (items : List Json) :
    complete schema site select (.list item nullable) (.array items) path =
      (Completion.list (items.zipIdx.map fun part =>
        complete schema site select item part.1 (path ++ [.index part.2]))).absorb nullable := by
  rw [complete]

theorem complete_notList (hnull : value ≠ .null) (hlist : ∀ items, value ≠ .array items) :
    complete schema site select (.list item nullable) value path =
      (Completion.failed
        ⟨.notList site.type site.field value.kind, site.position, path⟩).absorb nullable := by
  rw [complete]
  · exact hnull
  · exact hlist

theorem complete_leaf (hnull : value ≠ .null) (hleaf : schema.isLeaf name = true) :
    complete schema site select (.named name nullable) value path = .value value := by
  cases value with
  | null => exact absurd rfl hnull
  | _ => simp [complete, hleaf]

theorem complete_object (hleaf : schema.isLeaf name = false) (members : List (String × Json)) :
    complete schema site select (.named name nullable) (.object members) path =
      (select name (.object members) path).absorb nullable := by
  simp [complete, hleaf]

theorem complete_notObject (hnull : value ≠ .null) (hleaf : schema.isLeaf name = false)
    (hobject : ∀ members, value ≠ .object members) :
    complete schema site select (.named name nullable) value path =
      (Completion.failed
        ⟨.notObject name site.type site.field value.kind, site.position, path⟩).absorb
          nullable := by
  cases value with
  | null => exact absurd rfl hnull
  | object members => exact absurd rfl (hobject members)
  | _ => simp [complete, hleaf]

end

/-- What holds of null, of leaves, of objects, of whatever is no list or object where it should be
one, and of a list if it holds of its items, holds of every value. These are the cases of
`complete`, so that a proof about it has to say what it makes of each and nothing more. -/
@[elab_as_elim]
theorem value_induction (schema : Schema) {P : TypeRef → Json → Path → Prop}
    (null : ∀ type path, P type .null path)
    (array : ∀ item nullable items path,
      (∀ part ∈ items.zipIdx, P item part.1 (path ++ [.index part.2])) →
        P (.list item nullable) (.array items) path)
    (notList : ∀ item nullable value path, value ≠ .null → (∀ items, value ≠ .array items) →
      P (.list item nullable) value path)
    (leaf : ∀ name nullable value path, value ≠ .null → schema.isLeaf name = true →
      P (.named name nullable) value path)
    (object : ∀ name nullable members path, schema.isLeaf name = false →
      P (.named name nullable) (.object members) path)
    (notObject : ∀ name nullable value path, value ≠ .null → schema.isLeaf name = false →
      (∀ members, value ≠ .object members) → P (.named name nullable) value path)
    (type : TypeRef) (value : Json) (path : Path) : P type value path := by
  induction type generalizing value path with
  | named name nullable =>
    cases hleaf : schema.isLeaf name with
    | true =>
      cases value with
      | null => exact null _ _
      | _ => exact leaf _ _ _ _ (by simp) hleaf
    | false =>
      cases value with
      | null => exact null _ _
      | object members => exact object _ _ _ _ hleaf
      | _ => exact notObject _ _ _ _ (by simp) hleaf (by simp)
  | list item nullable ih =>
    cases value with
    | null => exact null _ _
    | array items => exact array _ _ _ _ fun part _ => ih _ _
    | _ => exact notList _ _ _ _ (by simp) (by simp)

end Evaluation

/-! ## Records -/

namespace Log

/-- Outcomes are those of a record, for all that is in it. Of what was never asked nothing is
said. -/
def Agrees (log : Log) (outcome : Inquiry → Outcome) : Prop :=
  ∀ entry ∈ log, outcome entry.1 = entry.2

/-- The outcomes of a record, looked up by path. What was not asked has no value; any other outcome
would do, for no evaluation comes to it. -/
def outcome (log : Log) (inquiry : Inquiry) : Outcome :=
  match log.find? (·.1.path = inquiry.path) with
  | some entry => entry.2
  | none => .error ⟨"not asked"⟩

/-- The paths of a record, in the order in which places were asked for. -/
def paths (log : Log) : List Path := log.map (·.1.path)

/-- Outcomes that are looked up are those of the record, if no path comes twice in it: then the
first entry with a path is the only one. -/
theorem agrees_outcome {log : Log} (h : log.paths.Nodup) : log.Agrees log.outcome := by
  intro entry hmem
  induction log with
  | nil => cases hmem
  | cons first rest ih =>
    rw [paths, List.map_cons, List.nodup_cons] at h
    rcases List.mem_cons.mp hmem with rfl | hmem
    · simp [outcome]
    · -- the first entry has another path and is not found for this one
      have hne : first.1.path ≠ entry.1.path := by
        intro heq
        exact h.1 (List.mem_map.mpr ⟨entry, hmem, heq.symm⟩)
      rw [← ih h.2 hmem]
      simp [outcome, hne]

end Log

/-! ## Every run is an evaluation -/

/-- What a record at a path is to be: the result comes of its outcomes, all that was asked belongs
at the path or below it, and nothing belongs where something else does. This is the invariant of
`ends_executeRecorded`; the second and third condition keep records of different parts apart. -/
structure Faithful (path : Path) (evaluate : (Inquiry → Outcome) → Completion)
    (recorded : Recorded Completion) : Prop where
  /-- the result comes of the outcomes -/
  result_eq : ∀ outcome, recorded.log.Agrees outcome → evaluate outcome = recorded.result
  /-- all belongs at the path or below -/
  below : ∀ asked ∈ recorded.log.paths, path <+: asked
  /-- no two belong at the same path -/
  nodup : recorded.log.paths.Nodup

namespace Faithful

variable {path : Path} {evaluate : (Inquiry → Outcome) → Completion}
  {recorded : Recorded Completion}

theorem done (completion : Completion) :
    Faithful path (fun _ => completion) ⟨completion, []⟩ where
  result_eq _ _ := rfl
  below _ hmem := absurd hmem List.not_mem_nil
  nodup := List.nodup_nil

/-- A changed result comes of the same outcomes. -/
theorem map (f : Completion → Completion) (h : Faithful path evaluate recorded) :
    Faithful path (fun outcome => f (evaluate outcome)) (recorded.map f) where
  result_eq outcome hlog := congrArg f (h.result_eq outcome hlog)
  below := h.below
  nodup := h.nodup

/-- One more inquiry, for the place at the path itself. It is not among the others if these are all
below. -/
theorem after (h : Faithful path evaluate recorded) (hnew : path ∉ recorded.log.paths)
    {inquiry : Inquiry} (hpath : inquiry.path = path) {result : Outcome}
    {evaluate' : (Inquiry → Outcome) → Completion}
    (hevaluate : ∀ outcome, outcome inquiry = result → evaluate' outcome = evaluate outcome) :
    Faithful path evaluate' (recorded.after inquiry result) := by
  have hpaths : (recorded.after inquiry result).log.paths = path :: recorded.log.paths := by
    rw [← hpath]
    rfl
  refine ⟨fun outcome hlog => ?_, fun asked hmem => ?_, ?_⟩
  · rw [hevaluate outcome (hlog _ List.mem_cons_self)]
    exact h.result_eq outcome fun entry hentry => hlog entry (List.mem_cons_of_mem _ hentry)
  · rw [hpaths] at hmem
    rcases List.mem_cons.mp hmem with rfl | hmem
    · exact List.prefix_refl _
    · exact h.below asked hmem
  · rw [hpaths]
    exact List.nodup_cons.mpr ⟨hnew, h.nodup⟩

/-- One inquiry only. -/
theorem single {completion : Completion} {inquiry : Inquiry} {result : Outcome}
    (hpath : inquiry.path = path)
    (hevaluate : ∀ outcome, outcome inquiry = result → evaluate outcome = completion) :
    Faithful path evaluate ⟨completion, [(inquiry, result)]⟩ :=
  (done completion).after List.not_mem_nil hpath hevaluate

/-- Results that become one, each recorded on a branch of its own. The entries of different branches
have different paths (`Path.pairwise_flatMap`), and none has the path of the whole. -/
theorem gather {ι : Type} {items : List ι} {step : ι → PathStep}
    {part : ι → (Inquiry → Outcome) → Completion} {parts : List (Recorded Completion)}
    (f : List Completion → Completion) (hsteps : (items.map step).Nodup)
    (h : List.Forall₂ (fun item recorded => Faithful (path ++ [step item]) (part item) recorded)
      items parts) :
    Faithful path (fun outcome => f (items.map fun item => part item outcome))
        (Recorded.gather f parts) ∧
      path ∉ (Recorded.gather f parts).log.paths := by
  have hpaths : (Recorded.gather f parts).log.paths = parts.flatMap (·.log.paths) := by
    simp only [Recorded.gather, Log.paths, List.map_flatMap]
  have hbelow : ∀ asked ∈ (Recorded.gather f parts).log.paths,
      ∃ item, path ++ [step item] <+: asked := by
    intro asked hmem
    rw [hpaths] at hmem
    obtain ⟨recorded, hrecorded, hmem⟩ := List.mem_flatMap.mp hmem
    obtain ⟨item, -, hitem⟩ := exists_of_forall₂ h hrecorded
    exact ⟨item, hitem.below asked hmem⟩
  refine ⟨⟨fun outcome hlog => ?_, fun asked hmem => ?_, ?_⟩, fun hmem => ?_⟩
  · refine congrArg f ?_
    -- the induction is on the parts alone; what is known of the whole would stand in its way
    clear hpaths hbelow hsteps
    induction h with
    | nil => rfl
    | @cons item recorded items parts hitem _ ih =>
      rw [List.map_cons, List.map_cons]
      refine congrArg₂ _ (hitem.result_eq outcome fun entry hentry => ?_)
        (ih fun entry hentry => ?_)
      · exact hlog entry (List.mem_append_left _ hentry)
      · exact hlog entry (List.mem_append_right _ hentry)
  · obtain ⟨item, hitem⟩ := hbelow asked hmem
    exact (List.prefix_append _ _).trans hitem
  · rw [hpaths]
    exact Path.pairwise_flatMap (fun _ _ hapart heq => hapart.1 (heq ▸ List.prefix_refl _)) hsteps
      (h.imp fun _ _ hitem => ⟨hitem.nodup, hitem.below⟩)
  · obtain ⟨item, hitem⟩ := hbelow path hmem
    exact Path.not_prefix_of_step hitem

end Faithful

/-- What a record below a path is to be: an object that is completed is not asked for by itself, and
so its path is free for the inquiry of the field that it belongs to. -/
def FaithfulBelow (path : Path) (evaluate : (Inquiry → Outcome) → Completion)
    (recorded : Recorded Completion) : Prop :=
  Faithful path evaluate recorded ∧ path ∉ recorded.log.paths

namespace Executor

variable {σ : Type}

/-- However the completion of a value ends, it is the evaluation of what it records, by induction on
the type. Fibers of items take turns, and what holds of the end of each holds of all
(`Fiber.ends_all`). -/
theorem ends_completeRecorded {schema : Schema} {site : Site}
    {selectRecorded : String → Json → Path → Fiber σ (Recorded Completion)}
    {select : (Inquiry → Outcome) → String → Json → Path → Completion}
    (hselect : ∀ name object path, (selectRecorded name object path).Ends
      (FaithfulBelow path fun outcome => select outcome name object path))
    (type : TypeRef) (value : Json) (path : Path) :
    (completeRecorded schema site selectRecorded type value path).Ends
      (FaithfulBelow path fun outcome =>
        Evaluation.complete schema site (select outcome) type value path) := by
  induction type generalizing value path with
  | named name nullable =>
    cases value with
    | null => cases nullable <;> exact ⟨.done _, List.not_mem_nil⟩
    | object members =>
      simp only [completeRecorded, Evaluation.complete]
      split
      · exact ⟨.done _, List.not_mem_nil⟩
      · exact Fiber.ends_map (hselect _ _ _) fun _ h => ⟨h.1.map (·.absorb nullable), h.2⟩
    | _ =>
      simp only [completeRecorded, Evaluation.complete]
      split <;> exact ⟨.done _, List.not_mem_nil⟩
  | list item nullable ih =>
    cases value with
    | null => cases nullable <;> exact ⟨.done _, List.not_mem_nil⟩
    | array items =>
      rw [completeRecorded]
      refine Fiber.ends_map (Fiber.ends_all fun x _ => ih x.1 (path ++ [.index x.2]))
        fun parts hparts => ?_
      simp only [Evaluation.complete]
      exact Faithful.gather (fun completions => (Completion.list completions).absorb nullable)
        (nodup_indexSteps items) (hparts.imp fun _ _ h => h.1)
    | _ => exact ⟨.done _, List.not_mem_nil⟩

/-- However what is selected of an object ends, if that is so of its fields. -/
theorem ends_objectRecorded (executor : Executor σ) {selected : List PlannedField}
    (hnodup : (selected.map PlannedField.output).Nodup) {type : String} {parent : Json}
    {path : Path}
    (h : ∀ field ∈ selected, (executor.fieldRecorded type parent path field).Ends
      (Faithful (path ++ [.field field.output]) fun outcome =>
        Evaluation.field executor.schema outcome type parent path field)) :
    (executor.objectRecorded selected type parent path).Ends
      (FaithfulBelow path fun outcome =>
        Evaluation.object executor.schema outcome selected type parent path) :=
  Fiber.ends_map (Fiber.ends_all h) fun _ hparts =>
    Faithful.gather _ (nodup_fieldSteps hnodup) hparts

/-- However a field ends: it has recorded its own inquiry and what was asked below, and its
completion comes of these outcomes. -/
theorem ends_fieldRecorded (executor : Executor σ) (field : PlannedField)
    (hdistinct : PlannedField.DistinctOutputs field.fields) (type : String) (parent : Json)
    (path : Path) :
    (executor.fieldRecorded type parent path field).Ends
      (Faithful (path ++ [.field field.output]) fun outcome =>
        Evaluation.field executor.schema outcome type parent path field) := by
  induction field using PlannedField.induction generalizing type parent path with
  | step field ih =>
    have hselect : ∀ name object path, (executor.objectRecorded field.fields name object path).Ends
        (FaithfulBelow path fun outcome =>
          Evaluation.object executor.schema outcome field.fields name object path) := by
      intro name object path
      refine ends_objectRecorded executor hdistinct.nodup fun below hbelow => ?_
      exact ih below hbelow (hdistinct.inner below hbelow) name object path
    rw [fieldRecorded_eq]
    simp only [Evaluation.field_eq]
    split
    · exact .done _
    · intro state
      refine Fiber.ends_bind (Fiber.ends_true _) fun result _ => ?_
      cases result with
      | error fault =>
        refine Fiber.ends_done (Faithful.single rfl fun outcome houtcome => ?_)
        rw [houtcome]
      | ok value =>
        refine Fiber.ends_map (ends_completeRecorded hselect field.type value _) fun _ h => ?_
        exact h.1.after h.2 rfl fun outcome houtcome => by rw [houtcome]

/-- However an execution ends: its response is the evaluation of any outcomes that agree with the
record, and no path comes twice in the record. -/
theorem ends_executeRecorded (executor : Executor σ) {plan : Plan}
    (hdistinct : PlannedField.DistinctOutputs plan.fields) :
    (executor.executeRecorded plan).Ends fun recorded =>
      recorded.log.paths.Nodup ∧ ∀ outcome, recorded.log.Agrees outcome →
        Evaluation.response executor.schema outcome plan = recorded.result := by
  let root := (executor.schema.root? plan.kind).getD ""
  have hfields := fun field hfield =>
    ends_fieldRecorded executor field (hdistinct.inner field hfield) root (.object []) []
  rw [executeRecorded, fieldsRecorded_eq_map]
  refine Fiber.ends_map (P := List.Forall₂ (fun field : PlannedField =>
    Faithful ([] ++ [PathStep.field field.output]) fun outcome =>
      Evaluation.field executor.schema outcome root (.object []) [] field) plan.fields)
    ?_ fun parts hparts => ?_
  · -- in turns or one after the other, each fiber ends as it does alone
    split
    · exact Fiber.ends_sequence hfields
    · exact Fiber.ends_all hfields
  obtain ⟨hfaithful, -⟩ := Faithful.gather (Completion.object (plan.fields.map (·.output)))
    (nodup_fieldSteps hdistinct.nodup) hparts
  refine ⟨hfaithful.nodup, fun outcome hlog => ?_⟩
  have hresult := hfaithful.result_eq outcome hlog
  rw [Evaluation.response, Evaluation.object, hresult]
  rfl

end Executor

end FeedGraph
