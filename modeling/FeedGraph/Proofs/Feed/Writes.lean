import FeedGraph.Proofs.Execution.Mutations
import FeedGraph.Proofs.Feed.Identity
import FeedGraph.Proofs.Feed.Reads

/-!
# Writes: mutations of the store

A mutation is a list of actions that are performed one after the other. Each field of the root asks
for one (`PlannedField.action?`), but for the type's name, which asks for none. What is posted is
shown as it is in the store directly after it was added; what is deleted shows whether it was there.

`FeedState.reports` is what this makes of the fields that are selected, said without resolvers,
types and fibers. The main statement is `Feed.answer_writes`: a mutation that is accepted is
answered with these reports, without errors, and leaves the state after its actions, each performed
once and in the order of the fields.

The step is one field of the root (`Feed.run_field`): its resolver performs the action, and
completing what is selected of the message only reads the state that this has left
(`Feed.run_complete`).
-/

namespace FeedGraph

/-- The action that a field of the root of mutations asks for. The texts are there in every accepted
mutation (`selected_action`). -/
def PlannedField.action? (field : PlannedField) : Option Action :=
  match field.name with
  | "postMessage" => do return .post (← field.text? "text") (← field.text? "authorId")
  | "deleteMessage" => (field.text? "id").map .delete
  | _ => none

/-- The calls that fields of the root of mutations stand for, in their order. They are those of one
client, so that what is known of calls goes for mutations. -/
def PlannedField.calls (selected : List PlannedField) : List (Call Unit) :=
  (selected.filterMap PlannedField.action?).map (Call.mk ())

/-- What a selection shows of a receipt, given the store that is there directly after it. An author
is looked up when the message is shown, and posting does not check that there is one. -/
def Receipt.view (store : Store) (selected : List PlannedField) : Receipt → Json
  | .posted message => message.view store selected
  | .deleted found => .boolean found

namespace FeedState

/-- What a field of the root of mutations shows, and the state that it leaves: the message as it was
posted, or whether there was one to delete. -/
def report (state : FeedState) (field : PlannedField) : Json × FeedState :=
  match field.action? with
  | none => (.string "Mutation", state)
  | some action =>
    let (receipt, next) := state.perform action
    (receipt.view next.store field.fields, next)

/-- What fields of the root of mutations show, one after the other, under their output names. Each
finds the state that the one before it has left. -/
def reports (state : FeedState) : List PlannedField → List (String × Json)
  | [] => []
  | field :: rest =>
    let (shown, next) := state.report field
    (field.output, shown) :: next.reports rest

theorem reports_cons (state : FeedState) (field : PlannedField) (rest : List PlannedField) :
    state.reports (field :: rest) =
      (field.output, (state.report field).1) :: (state.report field).2.reports rest := rfl

/-- A field leaves the state after its action, and one without an action the state that it found. -/
theorem after_calls_cons (state : FeedState) (field : PlannedField) (rest : List PlannedField) :
    state.after (PlannedField.calls (field :: rest)) =
      (state.report field).2.after (PlannedField.calls rest) := by
  rw [PlannedField.calls, report]
  cases haction : field.action? with
  | none =>
    rw [List.filterMap_cons_none haction]
    rfl
  | some action =>
    rw [List.filterMap_cons_some haction]
    rfl

/-- Calls send nothing to the catalog, by induction on them. -/
@[simp] theorem sent_after {ι : Type} (state : FeedState) (calls : List (Call ι)) :
    (state.after calls).sent = state.sent := by
  induction calls generalizing state with
  | nil => rfl
  | cons call rest ih =>
    obtain ⟨client, action⟩ := call
    rw [after_cons, ih]
    cases action <;> rfl

end FeedState

namespace Feed

variable (complain : String → Complaint) (catalog : Catalog) (depthLimit : Nat)
  {field : PlannedField}

/-! ## One field -/

/-- What is selected of the root of mutations, with its action: nothing but the type's name is
without one. -/
theorem selected_action (h : Declared schema "Mutation" field) :
    (field.name = PlannedField.typename ∧ field.action? = none) ∨
      (∃ text authorId, field.name = "postMessage" ∧ field.type = required "Message" ∧
        field.text? "text" = some text ∧ field.text? "authorId" = some authorId ∧
          field.action? = some (.post text authorId)) ∨
      (∃ id, field.name = "deleteMessage" ∧ field.type = required "Boolean" ∧
        field.text? "id" = some id ∧ field.action? = some (.delete id)) := by
  rw [PlannedField.action?]
  rcases selected_mutation h with hname | ⟨hname, htype, text, authorId, htext, hauthorId⟩ |
    ⟨hname, htype, id, hid⟩
  · refine .inl ⟨hname, ?_⟩
    rw [hname]
    rfl
  · refine .inr (.inl ⟨text, authorId, hname, htype, htext, hauthorId, ?_⟩)
    rw [hname]
    simp [htext, hauthorId]
  · refine .inr (.inr ⟨id, hname, htype, hid, ?_⟩)
    rw [hname]
    simp [hid]

/-- Below the roots, a value is completed with its evaluation in the state that is found, and this
is left as it is. What is asked for there only reads (`asksAmong_below`). -/
theorem run_complete {type : TypeRef} {selected : List PlannedField}
    (htype : type.underlying ≠ "Query" ∧ type.underlying ≠ "Mutation")
    (h : ∀ below ∈ selected, below.Throughout (Declared schema) type.underlying)
    (site : Executor.Site) (value : Json) (path : Path) (state : FeedState) :
    (Executor.complete schema site ((engine complain catalog depthLimit).object selected) type value
        path).run state =
      (Evaluation.complete schema site
        (Evaluation.object schema (outcomes catalog state).of selected) type value path, state) := by
  have hstore : ∀ found, found = state → found.store = state.store :=
    fun _ hfound => congrArg FeedState.store hfound
  have hselect : ∀ object path,
      ((engine complain catalog depthLimit).object selected type.underlying object path).EndsAmong
        (· = state) (· = Evaluation.object schema (outcomes catalog state).of selected type.underlying object
          path) := by
    have hasks : ∀ below ∈ selected, below.Throughout
        ((engine complain catalog depthLimit).AsksAmong (· = state) (outcomes catalog state))
        type.underlying :=
      fun below hmem => asksAmong_below hstore htype (h below hmem)
    exact Executor.endsAmong_object (engine complain catalog depthLimit).toExecutor hasks
  have hends : (Executor.complete schema site ((engine complain catalog depthLimit).object selected)
      type value path).EndsAmong (· = state) (· = _) :=
    Executor.endsAmong_complete hselect value path
  obtain ⟨hvalue, hstate⟩ := hends.run rfl
  exact Prod.ext hvalue hstate

/-- Posting, if the text and the author are given: the resolver changes the state at once and waits
for nothing. -/
theorem resolve_post {text authorId : String} (hname : field.name = "postMessage")
    (htext : field.text? "text" = some text) (hauthorId : field.text? "authorId" = some authorId)
    (parent : Json) (state : FeedState) :
    (resolvers catalog).resolve "Mutation" field.name parent field.arguments state =
      (.ready (.ok (state.post text authorId).1.toJson), (state.post text authorId).2) := by
  have hget : (resolvers catalog).get? "Mutation" "postMessage" = some postMessage := rfl
  rw [hname, ResolverTable.resolve, hget]
  simp only [postMessage, textArgument_of_text? htext, textArgument_of_text? hauthorId]

/-- Deleting, if the id is given; whether there was a message is the outcome, and not a fault. -/
theorem resolve_delete {id : String} (hname : field.name = "deleteMessage")
    (hid : field.text? "id" = some id) (parent : Json) (state : FeedState) :
    (resolvers catalog).resolve "Mutation" field.name parent field.arguments state =
      (.ready (.ok (.boolean (state.delete id).1)), (state.delete id).2) := by
  have hget : (resolvers catalog).get? "Mutation" "deleteMessage" = some deleteMessage := rfl
  rw [hname, ResolverTable.resolve, hget]
  simp only [deleteMessage, textArgument_of_text? hid]

/-- A field of the root of mutations performs its action and has its report as value. This is the
step of the induction on the fields: the resolver first, then what is selected of its value. -/
theorem run_field (hdistinct : PlannedField.DistinctOutputs field.fields)
    (h : field.Throughout (Declared schema) "Mutation") (path : Path) (state : FeedState) :
    ((engine complain catalog depthLimit).field "Mutation" (.object []) path field).run state =
      (.value (state.report field).1, (state.report field).2) := by
  have hroot := underlying_ne_root h.here
  have hbelow := h.descend
  rw [FeedState.report]
  rcases selected_action h.here with ⟨hname, haction⟩ |
    ⟨text, authorId, hname, htype, htext, hauthorId, haction⟩ | ⟨id, hname, htype, hid, haction⟩
  · rw [Executor.field_eq, if_pos hname, haction, Fiber.run_done]
  · have hresolve := resolve_post catalog hname htext hauthorId (.object []) state
    rw [Executor.run_field_of_ready _ (by rw [hname]; decide) hresolve, haction]
    refine (run_complete complain catalog depthLimit hroot hbelow _ _ _ _).trans (congrArg (·, _) ?_)
    rw [htype] at hbelow ⊢
    exact Evaluation.complete_record rfl ⟨_, rfl⟩ (object_message _ hdistinct hbelow _)
  · have hresolve := resolve_delete catalog hname hid (.object []) state
    rw [Executor.run_field_of_ready _ (by rw [hname]; decide) hresolve, haction]
    refine (run_complete complain catalog depthLimit hroot hbelow _ _ _ _).trans (congrArg (·, _) ?_)
    rw [htype]
    exact Evaluation.complete_leaf nofun rfl

/-! ## All fields -/

/-- Fields of the root of mutations, one after the other, have their reports as values and leave the
state after their actions. A field is done before the next one starts (`Fiber.sequence`), so
`run_field` applies to each in the state that it finds. -/
theorem run_fields {selected : List PlannedField}
    (hdistinct : ∀ field ∈ selected, PlannedField.DistinctOutputs field.fields)
    (h : ∀ field ∈ selected, field.Throughout (Declared schema) "Mutation") (state : FeedState) :
    (Fiber.sequence (selected.map
        ((engine complain catalog depthLimit).field "Mutation" (.object []) []))).run state =
      ((state.reports selected).map fun report => .value report.2,
        state.after (PlannedField.calls selected)) := by
  induction selected generalizing state with
  | nil => rfl
  | cons field rest ih =>
    have hfield := run_field complain catalog depthLimit (hdistinct field List.mem_cons_self)
      (h field List.mem_cons_self) [] state
    have hrest := ih (fun other hother => hdistinct other (List.mem_cons_of_mem _ hother))
      (fun other hother => h other (List.mem_cons_of_mem _ hother)) (state.report field).2
    rw [List.map_cons, Fiber.run_sequence_cons, hfield, hrest, FeedState.reports_cons,
      FeedState.after_calls_cons, List.map_cons]

section

variable {complain catalog depthLimit} {request : Request} {plan : Plan}

/-- So it is with the fields of an accepted mutation. -/
theorem run_mutation (hplan : (engine complain catalog depthLimit).plan request = .ok plan)
    (hkind : plan.kind = .mutation) (state : FeedState) :
    ((engine complain catalog depthLimit).answer request).run state =
      (Response.ofCompletions plan.fields
          ((state.reports plan.fields).map fun report => .value report.2),
        state.after (PlannedField.calls plan.fields)) := by
  obtain ⟨hdistinct, hdeclared⟩ := declared_plan hplan (root_of_mutation hkind)
  have hanswer : (engine complain catalog depthLimit).answer request =
      (Fiber.sequence (plan.fields.map
        ((engine complain catalog depthLimit).field "Mutation" (.object []) []))).map
          (Response.ofCompletions plan.fields) := by
    rw [Engine.answer, hplan]
    exact Executor.execute_eq_sequence _ plan hkind
  rw [hanswer, Fiber.run_map, run_fields complain catalog depthLimit hdistinct.inner hdeclared]

end

end Feed

/-! ## A thread -/

namespace Thread

/-- One post that is selected twice under one name, the same post under another name, and the
deletion of the first. -/
def request : Request where
  operationName? := none
  query? := some "mutation ($t: String!) { a: postMessage(text: $t authorId: 1) { id } ...P
    b: postMessage(text: $t authorId: 1) { id } deleteMessage(id: 3) }
    fragment P on Mutation { a: postMessage(authorId: 1 text: $t) { author { id } } }"
  variables? := some [("t", .string "Hello")]

/-- The request is accepted. The post that is selected twice is one action; posting again under
another name is another one. -/
theorem accepted : ((Timeline.engine.plan request).toOption.any fun plan =>
    decide (plan.kind = .mutation) &&
      decide ((PlannedField.calls plan.fields).map Call.action =
        [.post "Hello" "1", .post "Hello" "1", .delete "3"]) &&
      (Json.object ((FeedState.ofStore .seed).reports plan.fields)).text ==
        "\x7b\"a\":\x7b\"id\":\"3\",\"author\":\x7b\"id\":\"1\"\x7d\x7d," ++
          "\"b\":\x7b\"id\":\"4\"\x7d,\"deleteMessage\":true\x7d") = true := by
  decide +kernel

end Thread

end FeedGraph
