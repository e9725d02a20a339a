import FeedGraph.Proofs.Execution.Evaluation

/-!
# Frames: executing among states of a kind

What a resolver ends with may depend on the state, but often on a part of the state only that other
resolvers leave alone. `ResolverTable.SettledAmong` says so of the resolver for one field: as long
as it finds states of a kind, it leaves such states, and it ends with the outcome that is given for
its object and arguments.

If that is so of every field that is selected, on every level, then it is so of the whole: in states
of the kind, a field ends with its evaluation (`Executor.endsAmong_field`), however often resolvers
pause, and nothing that is executed in turns leaves the kind (`Executor.run_execute`).
-/

namespace FeedGraph

/-- What resolvers have for a field of a type, given the object and the arguments. Neither the state
nor the place in the data is among what an outcome depends on. -/
abbrev Outcomes : Type := String → String → Json → Members Value → Outcome

/-- The outcome of an inquiry. -/
def Outcomes.of (outcomes : Outcomes) (inquiry : Inquiry) : Outcome :=
  outcomes inquiry.type inquiry.field.name inquiry.parent inquiry.field.arguments

variable {σ : Type} {states : σ → Prop} {outcomes : Outcomes}

/-- Asked for a field in states of a kind, a resolver leaves such states, when it is asked and while
it is waited for, and it ends with the outcome for its object and arguments. The kind is chosen so
that all other resolvers of an execution keep to it too. -/
def ResolverTable.SettledAmong (table : ResolverTable σ) (states : σ → Prop) (outcomes : Outcomes)
    (type field : String) : Prop :=
  ∀ parent arguments state, states state →
    states (table.resolve type field parent arguments state).2 ∧
      (table.resolve type field parent arguments state).1.fiber.EndsAmong states
        (· = outcomes type field parent arguments)

namespace Executor

/-- What is asked for a field is settled among states of a kind. Nothing is asked for the name of a
type. -/
def AsksAmong (executor : Executor σ) (states : σ → Prop) (outcomes : Outcomes) (container : String)
    (field : PlannedField) : Prop :=
  field.name = PlannedField.typename ∨
    executor.resolvers.SettledAmong states outcomes container field.name

/-- The fiber for what is selected of an object: its fields in turns, and then one object of their
completions. -/
def object (executor : Executor σ) (selected : List PlannedField) (type : String) (parent : Json)
    (path : Path) : Fiber σ Completion :=
  (Fiber.all (selected.map (executor.field type parent path))).map
    (Completion.object (selected.map PlannedField.output))

/-- The fiber with which a field goes on when its outcome is there: a value is completed, and a
fault is a failure at the place of the field. -/
def settle (executor : Executor σ) (type : String) (path : Path) (asked : PlannedField) :
    Outcome → Fiber σ Completion
  | .ok value =>
    complete executor.schema ⟨type, asked.name, asked.position⟩ (executor.object asked.fields)
      asked.type value (path ++ [.field asked.output])
  | .error fault =>
    .done ((Completion.failed
      ⟨.fault fault, asked.position, path ++ [.field asked.output]⟩).absorb asked.type.nullable)

/-- The name of a type is known without asking. Any other field is asked for, and goes on with its
outcome (`settle`) when this is there. What `Executor.field` has written out is named here, so that
lemmas can be about it. -/
theorem field_eq (executor : Executor σ) (type : String) (parent : Json) (path : Path)
    (asked : PlannedField) :
    executor.field type parent path asked =
      if asked.name = PlannedField.typename then .done (.value (.string type))
      else
        .read fun state =>
          let (resolution, state) :=
            executor.resolvers.resolve type asked.name parent asked.arguments state
          .write state <| resolution.fiber.bind (executor.settle type path asked) := by
  obtain ⟨alias?, name, typeRef, arguments, selected, position⟩ := asked
  rw [field]
  simp only [fields_eq_map]
  split
  · rfl
  · refine congrArg Fiber.read (funext fun state => congrArg (Fiber.write _) ?_)
    exact congrArg _ (funext fun outcome => by cases outcome <;> rfl)

/-- If a value is there at once, it is completed from the state that its resolver leaves. -/
theorem run_field_of_ready (executor : Executor σ) {asked : PlannedField} {type : String}
    {parent value : Json} {state next : σ} (hname : asked.name ≠ PlannedField.typename)
    (h : executor.resolvers.resolve type asked.name parent asked.arguments state =
      (.ready (.ok value), next)) (path : Path) :
    (executor.field type parent path asked).run state =
      (complete executor.schema ⟨type, asked.name, asked.position⟩ (executor.object asked.fields)
        asked.type value (path ++ [.field asked.output])).run next := by
  rw [field_eq, if_neg hname, Fiber.run_read, h]
  rfl

/-- In states of a kind, the completion of a value ends with the completion without fibers, if that
is so of what is selected of objects. -/
theorem endsAmong_complete {schema : Schema} {site : Site}
    {select : String → Json → Path → Fiber σ Completion}
    {selected : String → Json → Path → Completion} {type : TypeRef}
    (hselect : ∀ object path, (select type.underlying object path).EndsAmong states
      (· = selected type.underlying object path)) (value : Json) (path : Path) :
    (complete schema site select type value path).EndsAmong states
      (· = Evaluation.complete schema site selected type value path) := by
  induction type generalizing value path with
  | named name nullable =>
    cases value with
    | null => cases nullable <;> exact rfl
    | object members =>
      simp only [complete, Evaluation.complete]
      split
      · exact Fiber.endsAmong_done rfl
      · refine Fiber.endsAmong_map (hselect _ path) fun _ h => ?_
        rw [h]
        rfl
    | _ =>
      simp only [complete, Evaluation.complete]
      split <;> exact Fiber.endsAmong_done rfl
  | list item nullable ih =>
    cases value with
    | null => cases nullable <;> exact rfl
    | array items =>
      rw [complete, completeItems_eq_map, Evaluation.complete_array]
      -- the items take turns, and each of them ends as it does alone
      refine Fiber.endsAmong_map (Fiber.endsAmong_all_eq fun part _ => ih hselect part.1 _)
        fun _ h => ?_
      rw [h]
    | _ => exact rfl

/-- In states of a kind, what a field goes on with ends with the evaluation of any outcomes that are
those of this field and settled below it. -/
theorem endsAmong_settle (executor : Executor σ) {outcome : Inquiry → Outcome}
    {asked : PlannedField} {type : String} {parent : Json} {path : Path}
    (hname : asked.name ≠ PlannedField.typename)
    (hselect : ∀ object path,
      (executor.object asked.fields asked.type.underlying object path).EndsAmong states
        (· = Evaluation.object executor.schema outcome asked.fields asked.type.underlying object
          path)) :
    (executor.settle type path asked
        (outcome ⟨type, parent, path ++ [.field asked.output], asked⟩)).EndsAmong states
      (· = Evaluation.field executor.schema outcome type parent path asked) := by
  rw [Evaluation.field_eq, if_neg hname]
  cases outcome ⟨type, parent, path ++ [.field asked.output], asked⟩ with
  | error fault => exact Fiber.endsAmong_done rfl
  | ok value => exact endsAmong_complete hselect value _

/-- In states of a kind, a field ends with its evaluation, if all that is asked for it is settled
among them. The induction is on what is selected; resolving keeps to the kind, and so does
completing (`endsAmong_settle`). -/
theorem endsAmong_field (executor : Executor σ) {asked : PlannedField} {type : String}
    (h : asked.Throughout (executor.AsksAmong states outcomes) type) (parent : Json) (path : Path) :
    (executor.field type parent path asked).EndsAmong states
      (· = Evaluation.field executor.schema outcomes.of type parent path asked) := by
  induction asked using PlannedField.induction generalizing type parent path with
  | step asked ih =>
    have hselect : ∀ object path,
        (executor.object asked.fields asked.type.underlying object path).EndsAmong states
          (· = Evaluation.object executor.schema outcomes.of asked.fields asked.type.underlying
            object path) := by
      intro object path
      refine Fiber.endsAmong_map
        (Fiber.endsAmong_all_eq fun below hmem => ih below hmem (h.descend below hmem) object path)
        fun _ h => ?_
      rw [h, Evaluation.object]
    rw [field_eq]
    split
    · next hname =>
      rw [Evaluation.field_eq, if_pos hname]
      exact Fiber.endsAmong_done rfl
    · next hname =>
      intro state hstate
      obtain ⟨hleft, hends⟩ :=
        h.here.resolve_left hname parent asked.arguments state hstate
      refine ⟨hleft, Fiber.endsAmong_bind hends fun outcome houtcome => ?_⟩
      rw [houtcome]
      exact endsAmong_settle executor hname hselect

/-- So do the fields that are selected of an object, in turns: none of them finds a state of another
kind. -/
theorem endsAmong_object (executor : Executor σ) {selected : List PlannedField} {type : String}
    (h : ∀ field ∈ selected, field.Throughout (executor.AsksAmong states outcomes) type)
    (parent : Json) (path : Path) :
    (executor.object selected type parent path).EndsAmong states
      (· = Evaluation.object executor.schema outcomes.of selected type parent path) := by
  refine Fiber.endsAmong_map (Fiber.endsAmong_all_eq fun field hmem =>
    endsAmong_field executor (h field hmem) parent path) fun _ h => ?_
  rw [h, Evaluation.object]

/-- If all that a plan asks for is settled among states of a kind, then the response from such a
state is its evaluation, and a state of the kind is left. The fields of a mutation come one after
the other; all others take turns. -/
theorem run_execute (executor : Executor σ) {plan : Plan} (hkind : plan.kind ≠ .mutation)
    (h : ∀ field ∈ plan.fields, field.Throughout (executor.AsksAmong states outcomes)
      ((executor.schema.root? plan.kind).getD "")) {state : σ} (hstate : states state) :
    ((executor.execute plan).run state).1 =
        Evaluation.response executor.schema outcomes.of plan ∧
      states ((executor.execute plan).run state).2 := by
  have hfields := (Fiber.endsAmong_all_eq fun field hmem =>
    endsAmong_field executor (h field hmem) (.object []) []).run hstate
  rw [execute, fields_eq_map, Fiber.run_map, Evaluation.response, Evaluation.object]
  cases hk : plan.kind with
  | mutation => exact absurd hk hkind
  | _ =>
    rw [hk] at hfields
    refine ⟨?_, hfields.2⟩
    rw [hfields.1]

end Executor

end FeedGraph
