import FeedGraph.Proofs.Feed.Views

/-!
# Reads: queries of the store

Queries that ask for no films are answered from the store as it is. The main statement is
`Feed.answer_reads`: whatever authors and messages there are, such a query is answered with the view
of the store that it selects and without errors, and leaves the state as it is.

Types and fields keep it together. Resolvers that change something are those of the root of
mutations, and those that look further than the store are those for films of the root of queries; no
field leads to one of the roots (`asksAmong_below`). All others end at once with what the store has
for them (`settledAmong_store`), and it is a value of the declared type.
-/

namespace FeedGraph

namespace Feed

variable {complain : String → Complaint} {catalog : Catalog} {depthLimit : Nat}
  {state : FeedState} {type field : String}

/-! ## Resolvers -/

/-- Outside mutations, only resolvers for films do more than reading the store. The table is gone
through once, here. -/
theorem get?_cases (catalog : Catalog) (type field : String) :
    (resolvers catalog).get? type field = none ∨
      (∃ outcome, (resolvers catalog).get? type field = some (reading outcome)) ∨
      (type = "Query" ∧ field = "allFilms") ∨ (type = "Query" ∧ field = "film") ∨
      type = "Mutation" := by
  rw [ResolverTable.get?]
  cases h : (resolvers catalog).entries.find? fun entry =>
      entry.type == type && entry.field == field with
  | none => exact .inl rfl
  | some entry =>
    have hkey := List.find?_some h
    have hmem := List.mem_of_find?_eq_some h
    simp only [Bool.and_eq_true, beq_iff_eq] at hkey
    obtain ⟨rfl, rfl⟩ := hkey
    simp only [resolvers, List.mem_cons, List.not_mem_nil, or_false] at hmem
    refine .inr ?_
    rcases hmem with rfl | rfl | rfl | rfl | rfl | rfl | rfl | rfl | rfl | rfl
    · exact .inl ⟨_, congrArg some authorFullName.eq_1⟩
    · exact .inl ⟨_, congrArg some messageAuthor.eq_1⟩
    · exact .inl ⟨_, congrArg some allMessages.eq_1⟩
    · exact .inl ⟨_, congrArg some message.eq_1⟩
    · exact .inl ⟨_, congrArg some allAuthors.eq_1⟩
    · exact .inl ⟨_, congrArg some author.eq_1⟩
    · exact .inr (.inl ⟨rfl, rfl⟩)
    · exact .inr (.inr (.inl ⟨rfl, rfl⟩))
    · exact .inr (.inr (.inr rfl))
    · exact .inr (.inr (.inr rfl))

/-- Among states with one store, what is not asked of mutations or for films is settled, and nothing
is changed by it. The set of states is a parameter: it is a single state for queries without films,
and all states in which requests were sent for the others. -/
theorem settledAmong_store {states : FeedState → Prop}
    (hstore : ∀ found, states found → found.store = state.store) (htype : type ≠ "Mutation")
    (hfilm : type = "Query" → field ≠ "allFilms" ∧ field ≠ "film") :
    (resolvers catalog).SettledAmong states (outcomes catalog state) type field := by
  intro parent arguments found hfound
  rcases get?_cases catalog type field with h | ⟨outcome, h⟩ | ⟨hquery, h⟩ | ⟨hquery, h⟩ | h
  · simp only [outcomes, ResolverTable.resolve, h]
    exact ⟨hfound, Fiber.endsAmong_done rfl⟩
  · simp only [outcomes, ResolverTable.resolve, h, reading, hstore found hfound]
    exact ⟨hfound, Fiber.endsAmong_done rfl⟩
  · exact absurd h (hfilm hquery).1
  · exact absurd h (hfilm hquery).2
  · exact absurd h htype

/-- Below the roots, nothing else is asked for, at any depth, since fields do not lead back to the
roots. -/
theorem asksAmong_below {states : FeedState → Prop}
    (hstore : ∀ found, states found → found.store = state.store) {asked : PlannedField}
    (htype : type ≠ "Query" ∧ type ≠ "Mutation") (h : asked.Throughout (Declared schema) type) :
    asked.Throughout
      ((engine complain catalog depthLimit).AsksAmong states (outcomes catalog state)) type := by
  have hbelow : ∀ container field, container ≠ "Query" ∧ container ≠ "Mutation" →
      Declared schema container field →
        (engine complain catalog depthLimit).AsksAmong states (outcomes catalog state) container
            field ∧
          field.type.underlying ≠ "Query" ∧ field.type.underlying ≠ "Mutation" := by
    intro container field hcontainer hdeclared
    have hsettled : (resolvers catalog).SettledAmong states (outcomes catalog state) container
        field.name := settledAmong_store hstore hcontainer.2 fun hquery => absurd hquery hcontainer.1
    exact ⟨.inr hsettled, underlying_ne_root hdeclared⟩
  exact h.along hbelow htype

/-! ## Queries -/

section

variable {request : Request} {plan : Plan}

/-- A query for which all that is asked of the root is settled among states with one store is
answered with its evaluation, and leaves such a state. By `Executor.run_execute` the order in which
its resolvers are asked does not matter. -/
theorem answer_settled {states : FeedState → Prop}
    (hstore : ∀ found, states found → found.store = state.store)
    (hplan : (engine complain catalog depthLimit).plan request = .ok plan)
    (hkind : plan.kind = .query)
    (hsettled : ∀ field ∈ plan.fields,
      (resolvers catalog).SettledAmong states (outcomes catalog state) "Query" field.name)
    (hstate : states state) :
    (((engine complain catalog depthLimit).answer request).run state).1 =
        Evaluation.response schema (outcomes catalog state).of plan ∧
      states (((engine complain catalog depthLimit).answer request).run state).2 := by
  have hroot : (engine complain catalog depthLimit).schema.root? plan.kind = some "Query" :=
    root_of_query hkind
  obtain ⟨-, hdeclared⟩ := declared_plan hplan hroot
  have hasks : ∀ field ∈ plan.fields, field.Throughout
      ((engine complain catalog depthLimit).AsksAmong states (outcomes catalog state))
      (((engine complain catalog depthLimit).schema.root? plan.kind).getD "") := by
    rw [hroot]
    intro field hmem
    refine .intro (.inr (hsettled field hmem)) fun below hbelow => ?_
    exact asksAmong_below hstore (underlying_ne_root (hdeclared field hmem).here)
      ((hdeclared field hmem).descend below hbelow)
  have hmutation : plan.kind ≠ .mutation := by
    rw [hkind]
    nofun
  rw [Engine.answer, hplan]
  exact Executor.run_execute _ hmutation hasks hstate

/-- A query without films is answered with its evaluation, and changes nothing: the set of states is
that of the one state. -/
theorem answer_without_films (hplan : (engine complain catalog depthLimit).plan request = .ok plan)
    (hkind : plan.kind = .query) (hfilms : ∀ field ∈ plan.fields, ¬IsFilm field)
    (state : FeedState) :
    (((engine complain catalog depthLimit).answer request).run state).1 =
        Evaluation.response schema (outcomes catalog state).of plan ∧
      (((engine complain catalog depthLimit).answer request).run state).2 = state := by
  have hstore : ∀ found, found = state → found.store = state.store :=
    fun _ hfound => congrArg FeedState.store hfound
  have hsettled : ∀ field ∈ plan.fields,
      (resolvers catalog).SettledAmong (· = state) (outcomes catalog state) "Query" field.name :=
    fun field hmem => settledAmong_store hstore (by decide) fun _ => not_or.mp (hfilms field hmem)
  exact answer_settled hstore hplan hkind hsettled rfl

end

end Feed

/-! ## A timeline -/

namespace Timeline

/-- Two authors with one id, and a message of an author who is not known. Neither can come about by
posting, but a feed may start with such a store. -/
def store : Store where
  authors := [⟨"1", "John", "Doe"⟩, ⟨"1", "Jane", "Roe"⟩]
  messages := [⟨"1", "Hello world", "1"⟩, ⟨"2", "Second tweet", "9"⟩]

/-- A catalog that cannot be reached. -/
def catalog : Catalog :=
  ⟨.blocked, ⟨"http", some "films", .segments [], none, none⟩, none⟩

def engine : Engine FeedState := Feed.engine .plain catalog 16

/-- One message, asked for twice under one name, and an author that is not known. -/
def request : Request where
  operationName? := none
  query? := some "query ($id: ID!) { one: message(id: $id) { text } one: message(id: 1) { ...A }
    none: author(id: 2) { id } } fragment A on Message { author { fullName } }"
  variables? := some [("id", .string "1")]

/-- The request is accepted, and what it selects shows the first of the two authors. The text is
that of the answer, with the members in the order in which they are selected. -/
theorem accepted : ((engine.plan request).toOption.any fun plan =>
    decide (plan.kind = .query ∧ ∀ field ∈ plan.fields, ¬Feed.IsFilm field) &&
      (store.view plan.fields).text ==
        "\x7b\"one\":\x7b\"text\":\"Hello world\",\"author\":\x7b\"fullName\":\"John Doe\"\x7d\x7d" ++
          ",\"none\":null\x7d") = true := by
  decide +kernel

end Timeline

end FeedGraph
