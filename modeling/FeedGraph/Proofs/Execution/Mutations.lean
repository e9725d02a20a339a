import FeedGraph.Proofs.Execution.Answers

/-!
# Mutations: one field after the other

Executing a mutation is executing its fields as operations of their own, each from the state that
the one before it has left. `Fiber.runEach` runs fibers like that and keeps what each of them does;
`Fiber.trace` is all that a fiber does in a run: what it reads and writes, and its pauses.

The main statement is `Executor.execute_mutation`. It compares the mutation with its fields
(`Plan.singles`) in four respects: the state that is left, everything that is done on the way, the
errors and the data (`Response.ConsistsOf`). As what is done for the whole is what is done for each
field, one field after the other, nothing is asked for a field before everything below the fields
before it is answered, and a failure of one field keeps none of the others from being executed.
-/

namespace FeedGraph

namespace Fiber

variable {σ α β γ : Type}

/-! ## Traces -/

/-- What a fiber does at one point of a run. All that distinguishes one execution from another for
somebody who looks at the state from outside is in the list of these events. -/
inductive Event (σ : Type) where
  /-- it looks at the state -/
  | read (state : σ)
  /-- it replaces the state -/
  | write (state : σ)
  /-- it waits for the next round -/
  | pause

/-- What a fiber does in a run in which it is alone, one event after the other. -/
def trace : Fiber σ α → σ → List (Event σ)
  | .done _, _ => []
  | .read next, s => .read s :: (next s).trace s
  | .write state next, _ => .write state :: next.trace state
  | .pause next, s => .pause :: next.trace s

@[simp] theorem trace_done (a : α) (s : σ) : (done a).trace s = [] := rfl

/-- The events of a fiber come before the events of what goes on with its result, and these begin in
the state that it leaves. From this the order of the fields of a mutation follows. -/
theorem trace_bind (fiber : Fiber σ α) (k : α → Fiber σ β) (s : σ) :
    (fiber.bind k).trace s = fiber.trace s ++ (k (fiber.run s).1).trace (fiber.run s).2 := by
  induction fiber generalizing s with
  | done a => rfl
  | read next ih => exact congrArg (.read s :: ·) (ih s s)
  | write state next ih => exact congrArg (.write state :: ·) (ih state)
  | pause next ih => exact congrArg (.pause :: ·) (ih s)

@[simp] theorem trace_map (f : α → β) (fiber : Fiber σ α) (s : σ) :
    (fiber.map f).trace s = fiber.trace s := by
  rw [map, trace_bind, trace_done, List.append_nil]

/-! ## Fibers one after the other -/

/-- Runs fibers to their ends, each from the state that the one before it leaves: their results,
their events in one list, and the state that the last of them leaves. It is written without
`Fiber.bind`, so that it can be the measure of what `Fiber.sequence` does. -/
def runEach : List (Fiber σ α) → σ → List α × List (Event σ) × σ
  | [], s => ([], [], s)
  | fiber :: rest, s =>
    let (results, events, last) := runEach rest (fiber.run s).2
    ((fiber.run s).1 :: results, fiber.trace s ++ events, last)

theorem runEach_cons (fiber : Fiber σ α) (rest : List (Fiber σ α)) (s : σ) :
    runEach (fiber :: rest) s =
      ((fiber.run s).1 :: (runEach rest (fiber.run s).2).1,
        fiber.trace s ++ (runEach rest (fiber.run s).2).2.1,
        (runEach rest (fiber.run s).2).2.2) := rfl

@[simp] theorem length_runEach (fibers : List (Fiber σ α)) (s : σ) :
    (runEach fibers s).1.length = fibers.length := by
  induction fibers generalizing s with
  | nil => rfl
  | cons fiber rest ih => rw [runEach_cons, List.length_cons, List.length_cons, ih]

/-- `Fiber.sequence` has the results and the last state of `runEach`. -/
theorem run_sequence (fibers : List (Fiber σ α)) (s : σ) :
    (sequence fibers).run s = ((runEach fibers s).1, (runEach fibers s).2.2) := by
  induction fibers generalizing s with
  | nil => rfl
  | cons fiber rest ih => rw [run_sequence_cons, ih, runEach_cons]

/-- `Fiber.sequence` has the events of `runEach`: nothing is done for a fiber before those in front
of it are done with everything. -/
theorem trace_sequence (fibers : List (Fiber σ α)) (s : σ) :
    (sequence fibers).trace s = (runEach fibers s).2.1 := by
  induction fibers generalizing s with
  | nil => rfl
  | cons fiber rest ih => rw [sequence, trace_bind, trace_map, ih, runEach_cons]

theorem runEach_map (f : γ → α → β) (fiber : γ → Fiber σ α) (items : List γ) (s : σ) :
    runEach (items.map fun item => (fiber item).map (f item)) s =
      (List.zipWith f items (runEach (items.map fiber) s).1,
        (runEach (items.map fiber) s).2) := by
  induction items generalizing s with
  | nil => rfl
  | cons item rest ih =>
    rw [List.map_cons, List.map_cons, runEach_cons, runEach_cons, run_map, trace_map, ih,
      List.zipWith_cons_cons]

end Fiber

/-! ## Parts of a response -/

/-- How the response for several fields comes of the responses for each of them. The errors are
theirs, in order. The data is null if the data of one of them is, because a null spreads from any of
the fields to the root; otherwise it is the object of all members, in order. -/
structure Response.ConsistsOf (whole : Response) (parts : List Response) : Prop where
  /-- the errors are those of the parts -/
  errors_eq : whole.errors = parts.flatMap (·.errors)
  /-- there is no data exactly if a part has none -/
  null_iff : whole.data? = some .null ↔ ∃ part ∈ parts, part.data? = some .null
  /-- otherwise the members are those of the parts -/
  members : (∀ part ∈ parts, part.data? ≠ some .null) →
    ∃ objects, List.Forall₂ (fun part object => part.data? = some (.object object)) parts objects ∧
      whole.data? = some (.object objects.flatten)

/-- The response for what is selected of a root, as a function of the completions.
`Executor.execute` makes the same response of what its fibers end with, which is how responses of
different plans can be compared. -/
def Response.ofCompletions (selected : List PlannedField) (completions : List Completion) :
    Response :=
  let completion := Completion.object (selected.map PlannedField.output) completions
  ⟨some (completion.value?.getD .null), completion.failures.map .ofFailure⟩

namespace Response

theorem data?_ofCompletions_singleton (field : PlannedField) (completion : Completion) :
    (ofCompletions [field] [completion]).data? =
      some (match completion.value? with
        | some value => .object [(field.output, value)]
        | none => .null) := by
  obtain ⟨value?, failures⟩ := completion
  cases value? <;> rfl

/-- A null spreads to the root from each field that has no value, and from nowhere else. -/
theorem data?_ofCompletions_eq_null_iff {selected : List PlannedField}
    {completions : List Completion} :
    (ofCompletions selected completions).data? = some .null ↔
      ∃ completion ∈ completions, completion.value? = none := by
  have hnone : (Completion.object (selected.map PlannedField.output) completions).value? = none ↔
      ∃ completion ∈ completions, completion.value? = none := Completion.object_eq_none_iff
  rw [← hnone, ofCompletions, Option.some.injEq]
  cases hvalue : (Completion.object (selected.map PlannedField.output) completions).value? with
  | none => simp
  | some json =>
    obtain ⟨values, -, rfl⟩ := Option.map_eq_some_iff.mp hvalue
    simp

/-- `Completion.allFailures` is a concatenation, so that the errors for some fields are split at the
first of them. -/
theorem errors_ofCompletions_cons (field : PlannedField) (rest : List PlannedField)
    (completion : Completion) (others : List Completion) :
    (ofCompletions (field :: rest) (completion :: others)).errors =
      (ofCompletions [field] [completion]).errors ++ (ofCompletions rest others).errors := by
  simp [ofCompletions, Completion.object, Completion.allFailures]

/-- The responses for each of some fields by itself. -/
def ofEach (selected : List PlannedField) (completions : List Completion) : List Response :=
  List.zipWith (fun field completion => ofCompletions [field] [completion]) selected completions

@[simp] theorem ofEach_cons (field : PlannedField) (rest : List PlannedField)
    (completion : Completion) (others : List Completion) :
    ofEach (field :: rest) (completion :: others) =
      ofCompletions [field] [completion] :: ofEach rest others := rfl

theorem errors_ofCompletions {selected : List PlannedField} {completions : List Completion}
    (hlength : completions.length = selected.length) :
    (ofCompletions selected completions).errors =
      (ofEach selected completions).flatMap (·.errors) := by
  induction selected generalizing completions with
  | nil =>
    rw [List.eq_nil_of_length_eq_zero hlength]
    rfl
  | cons field rest ih =>
    obtain ⟨completion, others, rfl⟩ := List.exists_cons_of_length_eq_add_one hlength
    rw [errors_ofCompletions_cons, ih (Nat.succ.inj hlength), ofEach_cons, List.flatMap_cons]

theorem exists_null_iff {selected : List PlannedField} {completions : List Completion}
    (hlength : completions.length = selected.length) :
    (∃ part ∈ ofEach selected completions, part.data? = some .null) ↔
      ∃ completion ∈ completions, completion.value? = none := by
  induction selected generalizing completions with
  | nil =>
    rw [List.eq_nil_of_length_eq_zero hlength]
    simp [ofEach]
  | cons field rest ih =>
    obtain ⟨completion, others, rfl⟩ := List.exists_cons_of_length_eq_add_one hlength
    rw [ofEach_cons, List.exists_mem_cons_iff, List.exists_mem_cons_iff,
      ih (Nat.succ.inj hlength), data?_ofCompletions_eq_null_iff]
    simp

theorem exists_objects {selected : List PlannedField} {completions : List Completion}
    {values : List Json} (hlength : completions.length = selected.length)
    (h : List.Forall₂ (fun completion value => completion.value? = some value) completions values) :
    ∃ objects, List.Forall₂ (fun part object => part.data? = some (.object object))
        (ofEach selected completions) objects ∧
      objects.flatten = (selected.map PlannedField.output).zip values := by
  induction h generalizing selected with
  | nil =>
    rw [List.eq_nil_of_length_eq_zero hlength.symm]
    exact ⟨[], .nil, rfl⟩
  | @cons completion value completions values hvalue _ ih =>
    obtain ⟨field, rest, rfl⟩ := List.exists_cons_of_length_eq_add_one hlength.symm
    obtain ⟨objects, hobjects, hflatten⟩ := ih (Nat.succ.inj hlength)
    refine ⟨[(field.output, value)] :: objects, .cons ?_ hobjects, ?_⟩
    · rw [data?_ofCompletions_singleton, hvalue]
    · rw [List.flatten_cons, hflatten]
      rfl

/-- A response for one field has data in which nothing but this field is, or null. -/
theorem data?_ofEach {selected : List PlannedField} {completions : List Completion}
    (hlength : completions.length = selected.length) :
    List.Forall₂ (fun field part => part.data? = some .null ∨
        ∃ value, part.data? = some (.object [(field.output, value)])) selected
      (ofEach selected completions) := by
  induction selected generalizing completions with
  | nil =>
    rw [List.eq_nil_of_length_eq_zero hlength]
    exact .nil
  | cons field rest ih =>
    obtain ⟨completion, others, rfl⟩ := List.exists_cons_of_length_eq_add_one hlength
    refine .cons ?_ (ih (Nat.succ.inj hlength))
    rw [data?_ofCompletions_singleton]
    cases completion.value? with
    | none => exact .inl rfl
    | some value => exact .inr ⟨value, rfl⟩

/-- The clauses of `ConsistsOf` for the responses of `ofEach`. The output names have to be
different, since otherwise the object would not have all members; those of an accepted plan are
(`h.nodup`). -/
theorem consistsOf_ofCompletions {selected : List PlannedField} {completions : List Completion}
    (hnodup : (selected.map PlannedField.output).Nodup)
    (hlength : completions.length = selected.length) :
    (ofCompletions selected completions).ConsistsOf (ofEach selected completions) where
  errors_eq := errors_ofCompletions hlength
  null_iff := by
    rw [data?_ofCompletions_eq_null_iff, exists_null_iff hlength]
  members hsome := by
    cases hvalue : (Completion.object (selected.map PlannedField.output) completions).value? with
    | none =>
      obtain ⟨part, hpart, hnull⟩ :=
        (exists_null_iff hlength).mpr (Completion.object_eq_none_iff.mp hvalue)
      exact absurd hnull (hsome part hpart)
    | some json =>
      obtain ⟨values, rfl, hall⟩ := Completion.object_eq_some (by simpa using hlength) hnodup hvalue
      obtain ⟨objects, hobjects, hflatten⟩ := exists_objects hlength hall
      refine ⟨objects, hobjects, ?_⟩
      rw [ofCompletions, hvalue, hflatten]
      rfl

end Response

/-! ## Mutations -/

/-- The plan that selects one field only. -/
def Plan.single (plan : Plan) (field : PlannedField) : Plan := { plan with fields := [field] }

/-- The plans for each of the fields that a plan selects, in order. -/
def Plan.singles (plan : Plan) : List Plan := plan.fields.map plan.single

namespace Executor

variable {σ : Type}

/-- The fiber for one field of the root. -/
def rootField (executor : Executor σ) (kind : OperationKind) (field : PlannedField) :
    Fiber σ Completion :=
  executor.field ((executor.schema.root? kind).getD "") (.object []) [] field

/-- For the kind `mutation`, `Executor.execute` takes its fields by `Fiber.sequence`, and not by
`Fiber.all`. -/
theorem execute_eq_sequence (executor : Executor σ) (plan : Plan) (hkind : plan.kind = .mutation) :
    executor.execute plan =
      (Fiber.sequence (plan.fields.map (executor.rootField .mutation))).map
        (Response.ofCompletions plan.fields) := by
  rw [execute, hkind, fields_eq_map]
  rfl

theorem execute_single (executor : Executor σ) {plan : Plan} (hkind : plan.kind = .mutation)
    (field : PlannedField) :
    executor.execute (plan.single field) =
      (executor.rootField .mutation field).map
        fun completion => Response.ofCompletions [field] [completion] := by
  rw [execute_eq_sequence executor (plan.single field) hkind, Plan.single,
    List.map_singleton, Fiber.sequence, Fiber.map_bind]
  rfl

/-- Executing an accepted mutation is executing the operations that consist of one of its fields
each, one after the other (`Plan.singles` and `Fiber.runEach`). The state that is left is theirs,
and so is all that is done on the way, in the same order. The response consists of theirs, each of
which has data that is null or an object of its field; in particular, the fields behind one that
fails are executed like those before it. -/
theorem execute_mutation (executor : Executor σ) {document : Document}
    {operationName? : Option String} {supplied : Members Json} {depthLimit : Nat} {plan : Plan}
    (h : Plan.ofDocument executor.schema document operationName? supplied depthLimit = .ok plan)
    (hkind : plan.kind = .mutation) (state : σ) :
    let (parts, events, last) := Fiber.runEach (plan.singles.map executor.execute) state
    ((executor.execute plan).run state).2 = last ∧
      (executor.execute plan).trace state = events ∧
      ((executor.execute plan).run state).1.ConsistsOf parts ∧
      List.Forall₂ (fun field part => part.data? = some .null ∨
        ∃ value, part.data? = some (.object [(field.output, value)])) plan.fields parts := by
  obtain ⟨root, -, hdistinct, -⟩ := Plan.declared_ofDocument h
  have hsingles : plan.singles.map executor.execute = plan.fields.map fun field =>
      (executor.rootField .mutation field).map
        fun completion => Response.ofCompletions [field] [completion] := by
    rw [Plan.singles, List.map_map]
    exact List.map_congr_left fun field _ => execute_single executor hkind field
  rw [hsingles, Fiber.runEach_map, execute_eq_sequence executor plan hkind, Fiber.run_map,
    Fiber.trace_map, Fiber.run_sequence, Fiber.trace_sequence]
  -- output names differ, so that no field takes the place of another one in the data
  exact ⟨rfl, rfl, Response.consistsOf_ofCompletions hdistinct.nodup (by simp),
    Response.data?_ofEach (by simp)⟩

end Executor

/-! ## Bookings -/

namespace Bookings

/-- Seats can be booked; a booking has a number. The house can be closed, which has to give a number
too. -/
def schema : Schema :=
  { Schema.initial with
    types := Schema.initial.types ++
      [⟨"Mutation", none, .object
          [⟨"book", .named "Booking" true, none, [⟨"seat", .named "ID" false, none⟩]⟩,
            ⟨"close", .named "Int" true, none, []⟩]⟩,
        ⟨"Booking", none, .object
          [⟨"number", .named "Int" false, none, []⟩, ⟨"seat", .named "ID" false, none, []⟩]⟩] }

/-- The state counts the bookings. Booking takes two rounds, and the number of a booking is looked
up after one more; closing is refused at once. -/
def executor : Executor Nat where
  schema := schema
  resolvers := ((ResolverTable.empty.register "Mutation" "book" fun _ arguments count =>
      (.deferred (.delay 2 (.read fun count => .write (count + 1) (.done (.ok (.object
        [("seat", ((Members.get? arguments "seat").map Value.toJson).getD .null)]))))), count)).register
    "Booking" "number" fun _ _ count =>
      (.deferred (.pause (.read fun count => .done (.ok (.ofNat count)))), count)).register
    "Mutation" "close" fun _ _ count => (.ready (.error ⟨"closed for today"⟩), count)

/-- Books a seat, tries to close, and books another seat. -/
def document : Document where
  operations := .anonymous ⟨.mutation, [],
    [.field (some "first") "book" [⟨"seat", .string "A", ⟨1, 23⟩⟩]
        [.field none "number" [] [] ⟨1, 30⟩] ⟨1, 12⟩,
      .field none "close" [] [] ⟨1, 40⟩,
      .field (some "second") "book" [⟨"seat", .string "B", ⟨1, 60⟩⟩]
        [.field none "seat" [] [] ⟨1, 70⟩, .field none "number" [] [] ⟨1, 75⟩] ⟨1, 50⟩], ⟨1, 1⟩⟩
  fragments := []

def plan : Plan :=
  ⟨none, .mutation,
    [⟨some "first", "book", .named "Booking" true, [("seat", .string "A")],
        [⟨none, "number", .named "Int" false, [], [], ⟨1, 30⟩⟩], ⟨1, 12⟩⟩,
      ⟨none, "close", .named "Int" true, [], [], ⟨1, 40⟩⟩,
      ⟨some "second", "book", .named "Booking" true, [("seat", .string "B")],
        [⟨none, "seat", .named "ID" false, [], [], ⟨1, 70⟩⟩,
          ⟨none, "number", .named "Int" false, [], [], ⟨1, 75⟩⟩], ⟨1, 50⟩⟩]⟩

theorem ofDocument_plan : Plan.ofDocument executor.schema document none [] 16 = .ok plan := by
  with_unfolding_all rfl

theorem plan_singles : Plan.ofDocument executor.schema document none [] 16 = .ok plan ∧
    plan.kind = .mutation ∧
    let (parts, events, last) := Fiber.runEach (plan.singles.map executor.execute) 0
    ((executor.execute plan).run 0).2 = last ∧
      (executor.execute plan).trace 0 = events ∧
      ((executor.execute plan).run 0).1.ConsistsOf parts ∧
      List.Forall₂ (fun field part => part.data? = some .null ∨
        ∃ value, part.data? = some (.object [(field.output, value)])) plan.fields parts :=
  ⟨ofDocument_plan, rfl, Executor.execute_mutation executor ofDocument_plan rfl 0⟩

/-- The second booking is made although the house could not be closed before it, and after the
number of the first is known. -/
example : ((executor.execute plan).run 0).1.data? =
    some (.object [("first", .object [("number", .ofNat 1)]), ("close", .null),
      ("second", .object [("seat", .string "B"), ("number", .ofNat 2)])]) := by
  rfl

end Bookings

end FeedGraph
