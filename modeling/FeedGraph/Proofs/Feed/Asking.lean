import FeedGraph.Proofs.Execution.Mutations
import FeedGraph.Proofs.Execution.Rounds
import FeedGraph.Proofs.Feed.Traffic

/-!
# Asking: whose turn it is to ask for films

What comes of a request to the catalog may depend on what was sent before it (`Transport.exchange`),
so that two fields which ask for the same may have different answers. What a field has is said here
without fibers: it is what the resolver has in the state in which it is the field's turn
(`FeedState.atTurn`), and in this state the requests of all fields before it have been sent, and no
others.

This is so because fields take turns, and a field for films sends its request before it pauses for
the first time (`Feed.advance_film`). So all requests are sent in the first round, in the order of
the fields (`Feed.advance_field`), and what fields do later changes nothing and depends on the store
alone, which queries leave as it is. The main statement is `Feed.answer_turns`: the response has for
each field its evaluation in the state of its turn.
-/

namespace FeedGraph

/-- Since a state, nothing has happened but requests to the catalog. These are the states that a
query may find itself in, between any two of its steps. -/
structure FeedState.OnlySent (state later : FeedState) : Prop where
  /-- the authors and messages are the same -/
  store_eq : later.store = state.store
  /-- the next message gets the same id -/
  nextId_eq : later.nextId = state.nextId
  /-- what was sent is still known -/
  sent_prefix : state.sent <+: later.sent

namespace FeedState

/-- The state behind the turn of a field of the root of queries: if it makes a request that has an
address, this has been sent. Nothing is sent for a field that is not one for films, and nothing if
the address of its film cannot be formed. -/
def ask (catalog : Catalog) (state : FeedState) (field : PlannedField) : FeedState :=
  match (Feed.filmRequest? field).map catalog.url with
  | some (.ok url) => state.send url
  | _ => state

/-- The state in which it is the turn of one of the fields that are selected of the root of queries:
those before it have asked. A field is known by its output name, since fields that were merged have
different ones. -/
def atTurn (catalog : Catalog) (selected : List PlannedField) (state : FeedState)
    (field : PlannedField) : FeedState :=
  (selected.takeWhile (·.output ≠ field.output)).foldl (ask catalog) state

variable {catalog : Catalog} {state later : FeedState}

namespace OnlySent

theorem refl (state : FeedState) : OnlySent state state := ⟨rfl, rfl, List.prefix_rfl⟩

/-- One more request. -/
theorem send (h : OnlySent state later) (url : Url) : OnlySent state (later.send url) where
  store_eq := h.store_eq
  nextId_eq := h.nextId_eq
  sent_prefix := h.sent_prefix.trans (List.prefix_append _ _)

/-- One more turn. -/
theorem ask (h : OnlySent state later) (field : PlannedField) :
    OnlySent state (later.ask catalog field) := by
  rw [FeedState.ask]
  split
  · exact h.send _
  · exact h

end OnlySent

/-- Asking leaves the store as it is. -/
@[simp] theorem store_atTurn (selected : List PlannedField) (field : PlannedField) :
    (state.atTurn catalog selected field).store = state.store := by
  have hsent : ∀ fields : List PlannedField, state.OnlySent (fields.foldl (ask catalog) state) :=
    fun fields => List.foldlRecOn fields _ (.refl state) fun _ h field _ => h.ask field
  exact (hsent _).store_eq

end FeedState

/-- A field in its first round is asked for, and then it goes as far as the answer of its resolver
lets it. What the resolver does at once is done in the state `state`; all the rest is its fiber,
which starts in the state that is left. -/
theorem Executor.advance_field {σ : Type} (executor : Executor σ) {asked : PlannedField}
    {type : String} {parent : Json} {state next : σ} {resolution : Resolution σ}
    (hname : asked.name ≠ PlannedField.typename)
    (h : executor.resolvers.resolve type asked.name parent asked.arguments state =
      (resolution, next)) (path : Path) :
    (executor.field type parent path asked).advance state =
      (resolution.fiber.bind (executor.settle type path asked)).advance next := by
  rw [field_eq, if_neg hname, Fiber.advance, h]
  rfl

namespace Feed

variable {complain : String → Complaint} {catalog : Catalog} {depthLimit : Nat}
  {state found : FeedState} {field : PlannedField} {films : FilmRequest}

/-! ## The outcome of a request -/

/-- What comes of asking the catalog in a state: the outcome of the exchange that `Catalog.ask` has
for what was sent so far. If no address can be formed there is no exchange, on both sides. -/
theorem run_asking (request : FilmRequest) (outcome : Except CatalogFault Exchange → Outcome)
    (state : FeedState) :
    ((asking catalog request outcome).run state).1 =
      outcome (catalog.ask state.sent request catalog.timeout?) := by
  rw [asking, Catalog.ask]
  cases catalog.url request with
  | error fault => rfl
  | ok url => rfl

/-- The outcome of a field for films is what its resolver makes of the exchange in the state in
which it is asked (`resolve_film`). -/
theorem outcomes_film (hrequest : filmRequest? field = some films)
    (hlimit : field.name = "allFilms" → filmLimit (Members.get? field.arguments "limit") =
      wantedFilms (Members.get? field.arguments "limit")) (state : FeedState) :
    outcomes catalog state "Query" field.name (.object []) field.arguments =
      filmsOutcome catalog field (catalog.ask state.sent films catalog.timeout?) := by
  rw [outcomes, resolve_film hrequest hlimit]
  exact run_asking films (filmsOutcome catalog field) state

/-! ## The first round -/

section

variable {request : Request} {plan : Plan}

/-- Below a field of the root, completing ends with the evaluation, among states with the same
store: nothing there is asked of mutations or for films, so all resolvers have their outcome at once
(`settledAmong_store`). -/
theorem endsAmong_below {states : FeedState → Prop}
    (hstore : ∀ found, states found → found.store = state.store)
    (h : field.Throughout (Declared schema) "Query") (object : Json) (path : Path) :
    ((engine complain catalog depthLimit).object field.fields field.type.underlying object
        path).EndsAmong states
      (· = Evaluation.object schema (outcomes catalog state).of field.fields field.type.underlying
        object path) := by
  refine Executor.endsAmong_object (engine complain catalog depthLimit).toExecutor
    (fun below hmem => ?_) object path
  exact asksAmong_below hstore (underlying_ne_root h.here) (h.descend below hmem)

/-- In its first round a field for films sends its request, if that has an address, and gets no
further. What is left is to complete what the catalog had for it. -/
theorem advance_film (hrequest : filmRequest? field = some films)
    (hlimit : field.name = "allFilms" → filmLimit (Members.get? field.arguments "limit") =
      wantedFilms (Members.get? field.arguments "limit"))
    (h : field.Throughout (Declared schema) "Query") (hfound : state.OnlySent found) :
    (((engine complain catalog depthLimit).field "Query" (.object []) [] field).advance found).2 =
        found.ask catalog field ∧
      (((engine complain catalog depthLimit).field "Query" (.object []) [] field).advance
          found).1.EndsAmong state.OnlySent
        (· = Evaluation.field schema (outcomes catalog found).of "Query" (.object []) [] field) := by
  have hname := name_ne_of_filmRequest? hrequest
  let settled := (engine complain catalog depthLimit).settle "Query" [] field
  have hsettled : ∀ states : FeedState → Prop, (∀ other, states other → other.store = found.store) →
      (settled (filmsOutcome catalog field
          (catalog.ask found.sent films catalog.timeout?))).EndsAmong states
        (· = Evaluation.field schema (outcomes catalog found).of "Query" (.object []) [] field) := by
    intro states hstore
    rw [← outcomes_film hrequest hlimit]
    exact Executor.endsAmong_settle (engine complain catalog depthLimit).toExecutor hname
      (endsAmong_below hstore h)
  have hstore : ∀ other, state.OnlySent other → other.store = found.store :=
    fun other hother => hother.store_eq.trans hfound.store_eq.symm
  rw [Executor.advance_field (engine complain catalog depthLimit).toExecutor hname
    (resolve_film hrequest hlimit (.object []) found) [], FeedState.ask, hrequest, Option.map_some,
    Resolution.fiber, asking]
  rw [Catalog.ask] at hsettled
  cases hurl : catalog.url films with
  | error fault =>
    rw [hurl] at hsettled
    -- nothing is sent, so that this state is the only one that is found
    have hsame := (hsettled (· = found) fun _ hother => congrArg _ hother).advance rfl
    exact ⟨hsame.2, ((hsettled _ hstore).advance hfound).1⟩
  | ok url =>
    rw [hurl] at hsettled
    exact ⟨rfl, hsettled _ hstore⟩

/-- In its first round, a field of the root of queries leads from the state that it finds to the one
behind its turn. What is left of it ends with its evaluation in the state that it found, whatever
else is sent in the meantime. -/
theorem advance_field (hplan : (engine complain catalog depthLimit).plan request = .ok plan)
    (hkind : plan.kind = .query) (hmem : field ∈ plan.fields) (hfound : state.OnlySent found) :
    (((engine complain catalog depthLimit).field "Query" (.object []) [] field).advance found).2 =
        found.ask catalog field ∧
      (((engine complain catalog depthLimit).field "Query" (.object []) [] field).advance
          found).1.EndsAmong state.OnlySent
        (· = Evaluation.field schema (outcomes catalog found).of "Query" (.object []) [] field) := by
  obtain ⟨checker, selections, hschema, -, hplanned⟩ := planned_plan hplan hkind
  obtain ⟨selection, -, hselection⟩ := exists_of_forall₂ hplanned hmem
  obtain ⟨-, hdeclared⟩ := declared_plan hplan (root_of_query hkind)
  have hfield := hdeclared field hmem
  cases hrequest : filmRequest? field with
  | some films => exact advance_film hrequest (filmLimit_eq hschema hselection) hfield hfound
  | none =>
    have hfilm : ¬IsFilm field := by
      rw [← isSome_filmRequest?_iff hfield.here, hrequest]
      nofun
    -- such a field ends with its evaluation among states of any kind with the same store
    have hends : ∀ states : FeedState → Prop, (∀ other, states other → other.store = found.store) →
        ((engine complain catalog depthLimit).field "Query" (.object []) [] field).EndsAmong states
          (· = Evaluation.field schema (outcomes catalog found).of "Query" (.object []) [] field) := by
      intro states hstore
      refine Executor.endsAmong_field (engine complain catalog depthLimit).toExecutor
        (.intro (.inr ?_) fun below hbelow => ?_) (.object []) []
      · exact settledAmong_store hstore (by decide) fun _ => not_or.mp hfilm
      · exact asksAmong_below hstore (underlying_ne_root hfield.here) (hfield.descend below hbelow)
    have hsame := ((hends (· = found) fun _ hother => congrArg _ hother).advance rfl).2
    have hleft := hends state.OnlySent fun other hother =>
      hother.store_eq.trans hfound.store_eq.symm
    refine ⟨?_, (hleft.advance hfound).1⟩
    rw [hsame, FeedState.ask, hrequest]
    rfl

/-- A query is answered with the evaluation of each field in the state in which it is its turn to
ask, and nothing is changed but what was sent. The first round of all fields is
`Fiber.run_all_along` with the states of their turns along it; what is left afterwards ends among
states in which requests were sent, in any order. -/
theorem answer_turns (hplan : (engine complain catalog depthLimit).plan request = .ok plan)
    (hkind : plan.kind = .query) (state : FeedState) :
    (((engine complain catalog depthLimit).answer request).run state).1 =
        Response.ofCompletions plan.fields (plan.fields.map fun field =>
          Evaluation.field schema (outcomes catalog (state.atTurn catalog plan.fields field)).of "Query"
            (.object []) [] field) ∧
      state.OnlySent (((engine complain catalog depthLimit).answer request).run state).2 := by
  obtain ⟨hdistinct, -⟩ := declared_plan hplan (root_of_query hkind)
  have hanswer : (engine complain catalog depthLimit).answer request =
      (Fiber.all (plan.fields.map
        ((engine complain catalog depthLimit).field "Query" (.object []) []))).map
          (Response.ofCompletions plan.fields) := by
    rw [Engine.answer, hplan]
    change (engine complain catalog depthLimit).execute plan = _
    rw [Executor.execute, hkind, Executor.fields_eq_map]
    rfl
  obtain ⟨hresults, hlast⟩ := Fiber.run_all_along
    (fun field hmem found (hfound : state.OnlySent found) =>
      ⟨hfound.ask field, advance_field hplan hkind hmem hfound⟩)
    (.refl state)
  rw [Fiber.along_eq_map PlannedField.output hdistinct.nodup] at hresults
  rw [hanswer, Fiber.run_map, hresults]
  exact ⟨rfl, hlast⟩

end

end Feed

end FeedGraph
