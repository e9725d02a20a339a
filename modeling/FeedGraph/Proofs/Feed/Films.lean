import FeedGraph.Proofs.Feed.Asking

/-!
# Films: records of the catalog, as far as they are selected

The catalog sends records of which nothing is known. What is answered for them depends on the
properties that are selected and on nothing else: if two catalogs, for each request that is planned,
fail in the same way or send records that are alike in what is selected of them (`Feed.Alike`), the
responses are the same. A catalog may answer two equal requests differently, so this is said for
each field with what came of its own request, in the state of its turn (`FeedState.atTurn`).

A property is answered as it was sent if it fits its type (`TypeRef.fits`): it is null only where
that is allowed, and a list where it has to be one. Properties of films have no parts below them, so
that their completion never asks for anything (`Evaluation.complete_eq_of_leaf`), and a record is
answered with its view if all that is selected of it fits (`Feed.complete_film`). The main statement
is `Feed.answer_films`.
-/

namespace FeedGraph

/-! ## Values without parts below them -/

/-- Whether a value fits a type of values without parts or of lists of these: it is null only if
that is allowed, and a list where it has to be one. What stands where no list is wanted is not
looked at, because a resolver is trusted with the kind of its values. -/
def TypeRef.fits : TypeRef → Json → Bool
  | type, .null => type.nullable
  | .named _ _, _ => true
  | .list item _, .array items => items.all item.fits
  | .list _ _, _ => false

theorem TypeRef.fits_null (type : TypeRef) : type.fits .null = type.nullable := by
  cases type <;> rfl

theorem TypeRef.fits_notList {item : TypeRef} {nullable : Bool} {value : Json}
    (hnull : value ≠ .null) (hlist : ∀ items, value ≠ .array items) :
    (TypeRef.list item nullable).fits value = false := by
  cases value with
  | null => exact absurd rfl hnull
  | array items => exact absurd rfl (hlist items)
  | _ => rfl

theorem TypeRef.fits_named {name : String} {nullable : Bool} {value : Json}
    (hnull : value ≠ .null) : (TypeRef.named name nullable).fits value = true := by
  cases value with
  | null => exact absurd rfl hnull
  | _ => rfl

namespace Evaluation

variable {schema : Schema} {site : Executor.Site}
  {select select' : String → Json → Path → Completion} {type : TypeRef} {value : Json} {path : Path}

/-- Items that are values make up a list, in their order; each item is completed at its own
index. -/
theorem complete_items {item : TypeRef} {nullable : Bool} {items : List Json} {value : Json → Json}
    (h : ∀ part ∈ items.zipIdx, complete schema site select item part.1 (path ++ [.index part.2]) =
      .value (value part.1)) :
    complete schema site select (.list item nullable) (.array items) path =
      .value (.array (items.map value)) := by
  have hvalues : (items.zipIdx.map fun part =>
      complete schema site select item part.1 (path ++ [.index part.2])) =
        (items.zipIdx.map Prod.fst).map fun item => .value (value item) := by
    rw [List.map_map]
    exact List.map_congr_left h
  rw [complete_array, hvalues, Completion.list_of_values, List.zipIdx_map_fst]
  exact Completion.absorb_of_value nullable rfl

/-- An item with a failure is a failure of the list, whether or not the list becomes null by it:
`Completion.absorb` keeps what has failed. -/
theorem failures_items {item : TypeRef} {nullable : Bool} {items : List Json}
    {part : Json × Nat} (hmem : part ∈ items.zipIdx)
    (h : (complete schema site select item part.1 (path ++ [.index part.2])).failures ≠ []) :
    (complete schema site select (.list item nullable) (.array items) path).failures ≠ [] := by
  rw [complete_array, Completion.failures_absorb]
  intro hnothing
  exact h (List.flatMap_eq_nil_iff.mp hnothing _ (List.mem_map_of_mem hmem))

/-- What holds of null, of leaves, of whatever is no list where it should be one, and of a list if
it holds of its items, holds of every value if the type has no parts. This is
`Evaluation.value_induction` without the two cases of objects, which `hleaf` excludes. -/
@[elab_as_elim]
theorem leaf_induction (schema : Schema) {P : TypeRef → Json → Path → Prop}
    (null : ∀ type path, P type .null path)
    (array : ∀ item nullable items path,
      (∀ part ∈ items.zipIdx, P item part.1 (path ++ [.index part.2])) →
        P (.list item nullable) (.array items) path)
    (notList : ∀ item nullable value path, value ≠ .null → (∀ items, value ≠ .array items) →
      P (.list item nullable) value path)
    (leaf : ∀ name nullable value path, value ≠ .null → schema.isLeaf name = true →
      P (.named name nullable) value path)
    (type : TypeRef) (value : Json) (path : Path)
    (hleaf : schema.isLeaf type.underlying = true) : P type value path := by
  induction type, value, path using value_induction schema with
  | null type path => exact null type path
  | array item nullable items path ih =>
    exact array item nullable items path fun part hmem => ih part hmem hleaf
  | notList item nullable value path hnull hlist => exact notList _ _ _ _ hnull hlist
  | leaf name nullable value path hnull hname => exact leaf _ _ _ _ hnull hname
  | object name nullable members path hname =>
    exact absurd hleaf (by simp [TypeRef.underlying, hname])
  | notObject name nullable value path hnull hname _ =>
    exact absurd hleaf (by simp [TypeRef.underlying, hname])

/-- What is selected of objects does not matter for such a type: completion only comes to it where
an object is wanted. -/
theorem complete_eq_of_leaf (hleaf : schema.isLeaf type.underlying = true) :
    complete schema site select type value path =
      complete schema site select' type value path := by
  refine leaf_induction schema (P := fun type value path =>
    complete schema site select type value path = complete schema site select' type value path)
    ?null ?array ?notList ?leaf type value path hleaf
  case null =>
    intro type path
    rw [complete_null, complete_null]
  case array =>
    intro item nullable items path ih
    rw [complete_array, complete_array, List.map_congr_left ih]
  case notList =>
    intro item nullable value path hnull hlist
    rw [complete_notList hnull hlist, complete_notList hnull hlist]
  case leaf =>
    intro name nullable value path hnull hname
    rw [complete_leaf hnull hname, complete_leaf hnull hname]

/-- What fits is left as it is. So the properties of a film are answered as they were sent, with
nothing rounded or converted on the way. -/
theorem complete_of_fits (hleaf : schema.isLeaf type.underlying = true)
    (hfits : type.fits value = true) :
    complete schema site select type value path = .value value := by
  refine leaf_induction schema (P := fun type value path => type.fits value = true →
    complete schema site select type value path = .value value)
    ?null ?array ?notList ?leaf type value path hleaf hfits
  case null =>
    intro type path hfits
    rw [TypeRef.fits_null] at hfits
    rw [complete_null, if_pos hfits]
  case array =>
    intro item nullable items path ih hfits
    have hitems : ∀ part ∈ items.zipIdx, complete schema site select item part.1
        (path ++ [.index part.2]) = .value (id part.1) := fun part hmem =>
      ih part hmem (List.all_eq_true.mp hfits part.1 (List.fst_mem_of_mem_zipIdx hmem))
    rw [complete_items hitems, List.map_id]
  case notList =>
    intro item nullable value path hnull hlist hfits
    rw [TypeRef.fits_notList hnull hlist] at hfits
    cases hfits
  case leaf =>
    intro name nullable value path hnull hname _
    exact complete_leaf hnull hname

/-- What does not fit is a failure. With `complete_of_fits` this makes `TypeRef.fits` the exact
condition. -/
theorem failures_of_not_fits (hleaf : schema.isLeaf type.underlying = true)
    (hfits : type.fits value = false) :
    (complete schema site select type value path).failures ≠ [] := by
  refine leaf_induction schema (P := fun type value path => type.fits value = false →
    (complete schema site select type value path).failures ≠ [])
    ?null ?array ?notList ?leaf type value path hleaf hfits
  case null =>
    intro type path hfits
    rw [TypeRef.fits_null] at hfits
    rw [complete_null, hfits]
    simp [Completion.failed]
  case array =>
    intro item nullable items path ih hfits
    obtain ⟨value, hmem, hvalue⟩ := List.all_eq_false.mp hfits
    rw [← List.zipIdx_map_fst 0 items] at hmem
    obtain ⟨part, hpart, rfl⟩ := List.mem_map.mp hmem
    exact failures_items hpart (ih part hpart (Bool.eq_false_iff.mpr hvalue))
  case notList =>
    intro item nullable value path hnull hlist _
    rw [complete_notList hnull hlist, Completion.failures_absorb]
    simp [Completion.failed]
  case leaf =>
    intro name nullable value path hnull hname hfits
    rw [TypeRef.fits_named hnull] at hfits
    cases hfits

end Evaluation

/-! ## What is selected of films -/

/-- What a catalog has for a request, if so much was sent before it: several films or a single one,
which is a list of one here so that there is one statement about both. -/
def Catalog.records (catalog : Catalog) (sent : List Url) :
    FilmRequest → Except CatalogFault (List Json)
  | .list limit => catalog.films sent limit catalog.timeout?
  | .details id => (catalog.film sent id catalog.timeout?).map fun members => [.object members]

/-- For an id there is a single one, by the definition. -/
theorem Catalog.single_details {catalog : Catalog} {sent : List Url} {id : String}
    {found : List Json} (h : catalog.records sent (.details id) = .ok found) :
    ∃ record, found = [record] := by
  obtain ⟨members, -, rfl⟩ := ok_of_map h
  exact ⟨.object members, rfl⟩

namespace Feed

variable {selected : List PlannedField} {field : PlannedField}

/-- What a field of a film shows: the property as it was sent, or null if it is missing. A record
says nothing of its type, so `__typename` is answered without it. -/
def filmMember (record : Json) (field : PlannedField) : Json :=
  if field.name = PlannedField.typename then .string "FilmRecord"
  else (record.member? field.name).getD .null

/-- What a selection shows of a film: one member for each selected field, under its output name. -/
def filmView (selected : List PlannedField) (record : Json) : Json :=
  view selected (filmMember record)

/-- All that is selected of a film can be shown: it is an object, and the properties fit. Nothing is
asked of properties that are not selected. -/
def FilmFits (selected : List PlannedField) (record : Json) : Prop :=
  (∃ members, record = .object members) ∧
    ∀ field ∈ selected, field.name ≠ PlannedField.typename →
      field.type.fits (filmMember record field) = true

/-- Two objects have the same selected properties, where a missing one counts as null. They need not
be in the same order, nor be written once only. -/
def SameProperties (selected : List PlannedField) (members others : List (String × Json)) : Prop :=
  ∀ field ∈ selected, field.name ≠ PlannedField.typename →
    (Members.get? members field.name).getD .null = (Members.get? others field.name).getD .null

/-- Two records are the same as far as they are selected. What is no object is to be the same as a
whole, since it is part of the error that it leads to. -/
inductive Alike (selected : List PlannedField) : Json → Json → Prop where
  /-- the same -/
  | same (record : Json) : Alike selected record record
  /-- objects with the same selected properties -/
  | objects {members others : List (String × Json)} :
      SameProperties selected members others → Alike selected (.object members) (.object others)

/-- Fields of a film are its properties, whatever else the outcomes are of
(`hasProperties_outcomes`). -/
def HasProperties (outcome : Inquiry → Outcome) : Prop :=
  ∀ parent path field, outcome ⟨"FilmRecord", parent, path, field⟩ = memberOutcome field.name parent

theorem hasProperties_outcomes (catalog : Catalog) (state : FeedState) :
    HasProperties (outcomes catalog state).of := by
  intro parent path field
  have hnone : (resolvers catalog).get? "FilmRecord" field.name = none := by
    simp [ResolverTable.get?, resolvers]
  simp only [Outcomes.of, outcomes, ResolverTable.resolve, hnone]
  rfl

/-- No property of a film has parts below it. That is read off `Feed.schema`: `FilmRecord` has
scalars and lists of scalars only. -/
theorem isLeaf_film (h : Declared schema "FilmRecord" field)
    (hname : field.name ≠ PlannedField.typename) :
    schema.isLeaf field.type.underlying = true := by
  have hleaf : ∀ definition ∈ filmType.kind.fields,
      schema.isLeaf definition.type.underlying = true := by decide
  have hfound : schema.type? "FilmRecord" = some filmType := rfl
  rcases selected hfound h with hname' | ⟨definition, hmem, -, htype, -⟩
  · exact absurd hname' hname
  · rw [htype]
    exact hleaf definition hmem

section

variable {outcome outcome' : Inquiry → Outcome} {site : Executor.Site} {path : Path}

/-- A field of a film is completed from the property. Its outcome is that of `memberOutcome`, which
never fails, so that only completion can. -/
theorem field_film (houtcome : HasProperties outcome) (members : List (String × Json)) :
    Evaluation.field schema outcome "FilmRecord" (.object members) path field =
      if field.name = PlannedField.typename then .value (.string "FilmRecord")
      else
        Evaluation.complete schema ⟨"FilmRecord", field.name, field.position⟩
          (Evaluation.object schema outcome field.fields) field.type
          ((Members.get? members field.name).getD .null) (path ++ [.field field.output]) := by
  rw [Evaluation.field_eq, houtcome, memberOutcome]

/-- What is selected of two films is the same if the selected properties are: by `field_film` and
`complete_eq_of_leaf`, a field of a film is told by its property alone. -/
theorem object_alike (houtcome : HasProperties outcome) (houtcome' : HasProperties outcome')
    (hdeclared : ∀ field ∈ selected, Declared schema "FilmRecord" field)
    {members others : List (String × Json)} (h : SameProperties selected members others) :
    Evaluation.object schema outcome selected "FilmRecord" (.object members) path =
      Evaluation.object schema outcome' selected "FilmRecord" (.object others) path := by
  rw [Evaluation.object, Evaluation.object]
  refine congrArg _ (List.map_congr_left fun field hmem => ?_)
  rw [field_film houtcome, field_film houtcome']
  split
  · rfl
  · next hname =>
    rw [h field hmem hname]
    exact Evaluation.complete_eq_of_leaf (isLeaf_film (hdeclared field hmem) hname)

/-- So two films that are alike are completed in the same way; those that are no objects are even
equal. -/
theorem complete_alike (houtcome : HasProperties outcome) (houtcome' : HasProperties outcome')
    (hdeclared : ∀ field ∈ selected, Declared schema "FilmRecord" field) {record other : Json}
    (h : Alike selected record other) :
    Evaluation.complete schema site (Evaluation.object schema outcome selected)
        (required "FilmRecord") record path =
      Evaluation.complete schema site (Evaluation.object schema outcome' selected)
        (required "FilmRecord") other path := by
  have hleaf : schema.isLeaf "FilmRecord" = false := rfl
  cases h with
  | objects hagree =>
    rw [required, Evaluation.complete_object hleaf, Evaluation.complete_object hleaf,
      object_alike houtcome houtcome' hdeclared hagree]
  | same =>
    cases record with
    | object members =>
      rw [required, Evaluation.complete_object hleaf, Evaluation.complete_object hleaf,
        object_alike houtcome houtcome' hdeclared fun _ _ _ => rfl]
    | _ => rfl

/-- The same for lists of films, by induction on the pairs. Errors tell the index of a film, so the
start of the numbering is generalized. -/
theorem complete_films_alike (houtcome : HasProperties outcome)
    (houtcome' : HasProperties outcome')
    (hdeclared : ∀ field ∈ selected, Declared schema "FilmRecord" field)
    {records others : List Json} (h : List.Forall₂ (Alike selected) records others) :
    Evaluation.complete schema site (Evaluation.object schema outcome selected)
        (.list (required "FilmRecord") false) (.array records) path =
      Evaluation.complete schema site (Evaluation.object schema outcome' selected)
        (.list (required "FilmRecord") false) (.array others) path := by
  have hitems : ∀ start, ((records.zipIdx start).map fun part =>
      Evaluation.complete schema site (Evaluation.object schema outcome selected)
        (required "FilmRecord") part.1 (path ++ [.index part.2])) =
      (others.zipIdx start).map fun part =>
        Evaluation.complete schema site (Evaluation.object schema outcome' selected)
          (required "FilmRecord") part.1 (path ++ [.index part.2]) := by
    induction h with
    | nil => exact fun _ => rfl
    | cons hfirst _ ih =>
      intro start
      rw [List.zipIdx_cons, List.zipIdx_cons, List.map_cons, List.map_cons, ih,
        complete_alike houtcome houtcome' hdeclared hfirst]
  rw [Evaluation.complete_array, Evaluation.complete_array, hitems]

/-- A film of which all that is selected fits is answered with its view. Each of its fields is a
value by `Evaluation.complete_of_fits`, and `Evaluation.complete_record` puts them together. -/
theorem complete_film (houtcome : HasProperties outcome)
    (hdistinct : PlannedField.DistinctOutputs selected)
    (hdeclared : ∀ field ∈ selected, Declared schema "FilmRecord" field) {record : Json}
    (h : FilmFits selected record) :
    Evaluation.complete schema site (Evaluation.object schema outcome selected)
        (required "FilmRecord") record path = .value (filmView selected record) := by
  obtain ⟨⟨members, rfl⟩, hfits⟩ := h
  refine Evaluation.complete_record rfl ⟨members, rfl⟩
    (Evaluation.object_of_values hdistinct.nodup fun field hmem => ?_)
  rw [field_film houtcome, filmMember]
  split
  · rfl
  · next hname =>
    have hfits := hfits field hmem hname
    rw [filmMember, if_neg hname] at hfits
    exact Evaluation.complete_of_fits (isLeaf_film (hdeclared field hmem) hname) hfits

/-- Any other film is a failure: it is no object, or one of its properties does not fit, and neither
is forgotten on the way up. -/
theorem failures_film (houtcome : HasProperties outcome)
    (hdeclared : ∀ field ∈ selected, Declared schema "FilmRecord" field) {record : Json}
    (h : ¬FilmFits selected record) :
    (Evaluation.complete schema site (Evaluation.object schema outcome selected)
        (required "FilmRecord") record path).failures ≠ [] := by
  cases record with
  | object members =>
    have hunfit : ∃ field ∈ selected, field.name ≠ PlannedField.typename ∧
        field.type.fits (filmMember (.object members) field) = false := by
      by_contra hfits
      push Not at hfits
      exact h ⟨⟨members, rfl⟩, fun field hmem hname =>
        Bool.eq_true_of_not_eq_false (hfits field hmem hname)⟩
    obtain ⟨field, hmem, hname, hunfit⟩ := hunfit
    rw [filmMember, if_neg hname] at hunfit
    rw [required, Evaluation.complete_object rfl, Completion.failures_absorb]
    intro hnothing
    have hfield := List.flatMap_eq_nil_iff.mp hnothing _ (List.mem_map_of_mem hmem)
    rw [field_film houtcome, if_neg hname] at hfield
    exact Evaluation.failures_of_not_fits (isLeaf_film (hdeclared field hmem) hname) hunfit hfield
  | _ => exact List.cons_ne_nil _ _

end

/-! ## Fields for films -/

/-- What a resolver for films has, once it is known what comes of the request: the fault with its
message, or the films. Of a single one that is asked for it is the head of the list. -/
def answered (field : PlannedField) : Except CatalogFault (List Json) → Outcome
  | .error fault => .error ⟨fault.message⟩
  | .ok records => .ok (if field.name = "allFilms" then .array records else records.headD .null)

/-- What a field for films shows: a list of views, or one. -/
def filmsView (field : PlannedField) (records : List Json) : Json :=
  if field.name = "allFilms" then .array (records.map (filmView field.fields))
  else filmView field.fields (records.headD .null)

/-- A field is one for films, and this comes of its request. All that is said of such a field below
follows from these two facts, whatever the other outcomes are. -/
structure AsksFilms (outcome : Inquiry → Outcome) (field : PlannedField)
    (result : Except CatalogFault (List Json)) : Prop where
  /-- it is declared as one or several films -/
  type_eq : field.name = "allFilms" ∧ field.type = .list (required "FilmRecord") false ∨
    field.name = "film" ∧ field.type = required "FilmRecord"
  /-- its outcome is what comes of the request -/
  outcome_eq : outcome ⟨"Query", .object [], [.field field.output], field⟩ = answered field result
  /-- if there is one film, it is a single one -/
  single : field.name ≠ "allFilms" → ∀ records, result = .ok records → ∃ record, records = [record]

theorem type_of_film (h : Declared schema "Query" field) (hfilm : IsFilm field) :
    field.name = "allFilms" ∧ field.type = .list (required "FilmRecord") false ∨
      field.name = "film" ∧ field.type = required "FilmRecord" := by
  rcases hfilm with hname | hname
  all_goals
    obtain ⟨definition, hdefinition, htype, -⟩ := h.exists_definition (by rw [hname]; decide)
    rw [hname] at hdefinition
    obtain rfl := Option.some.inj hdefinition
  · exact .inl ⟨hname, htype⟩
  · exact .inr ⟨hname, htype⟩

section

variable {catalog : Catalog} {state : FeedState} {films : FilmRequest}

/-- What a resolver for films makes of an exchange is said by the films that the exchange brings, be
they several or one. This is where `Catalog.ask`, which deals with exchanges, and `Catalog.records`,
which deals with films, meet. -/
theorem filmsOutcome_ask (hrequest : filmRequest? field = some films) (sent : List Url) :
    filmsOutcome catalog field (catalog.ask sent films catalog.timeout?) =
      answered field (catalog.records sent films) := by
  rw [filmRequest?] at hrequest
  rw [filmsOutcome]
  split at hrequest
  · next hname =>
    obtain rfl := Option.some.inj hrequest
    rw [if_pos hname, Catalog.records, Catalog.films]
    cases (catalog.ask sent _ catalog.timeout?).bind (Exchange.films catalog.complaint) with
    | error fault => rfl
    | ok records => simp [filmOutcome, answered, hname]
  · next hall =>
    split at hrequest
    · obtain ⟨id, -, rfl⟩ := Option.map_eq_some_iff.mp hrequest
      rw [if_neg hall, Catalog.records, Catalog.film]
      cases (catalog.ask sent _ catalog.timeout?).bind (Exchange.film catalog.complaint) with
      | error fault => rfl
      | ok members => simp [filmOutcome, answered, hall, Except.map]
    · cases hrequest

/-- The resolvers for films have what comes of the requests. The limit of `allFilms` was checked
when the request was planned, so that it is the one that is wanted. -/
theorem asksFilms_outcomes (hdeclared : Declared schema "Query" field)
    (hrequest : filmRequest? field = some films)
    (hlimit : field.name = "allFilms" → filmLimit (Members.get? field.arguments "limit") =
      wantedFilms (Members.get? field.arguments "limit")) :
    AsksFilms (outcomes catalog state).of field (catalog.records state.sent films) where
  type_eq := by
    refine type_of_film hdeclared ?_
    rw [← isSome_filmRequest?_iff hdeclared, hrequest]
    rfl
  outcome_eq := (outcomes_film hrequest hlimit state).trans (filmsOutcome_ask hrequest state.sent)
  single hne records hrecords := by
    rw [filmRequest?, if_neg hne] at hrequest
    split at hrequest
    · obtain ⟨id, -, rfl⟩ := Option.map_eq_some_iff.mp hrequest
      exact Catalog.single_details hrecords
    · cases hrequest

end

section

variable {outcome outcome' : Inquiry → Outcome} {result result' : Except CatalogFault (List Json)}

theorem AsksFilms.name_ne (h : AsksFilms outcome field result) :
    field.name ≠ PlannedField.typename := by
  rcases h.type_eq with ⟨hname, -⟩ | ⟨hname, -⟩ <;> rw [hname] <;> decide

/-- Below such a field, properties of films are selected. -/
theorem AsksFilms.declared (h : AsksFilms outcome field result)
    (hdeclared : field.Throughout (Declared schema) "Query") :
    ∀ below ∈ field.fields, Declared schema "FilmRecord" below := by
  intro below hmem
  have hunder : field.type.underlying = "FilmRecord" := by
    rcases h.type_eq with ⟨-, htype⟩ | ⟨-, htype⟩ <;> rw [htype] <;> rfl
  rw [← hunder]
  exact (hdeclared.descend below hmem).here

/-- It is completed from what comes of the request: a fault is at the place of the field, and films
are completed against the type of the field. -/
theorem AsksFilms.field_eq (h : AsksFilms outcome field result) :
    Evaluation.field schema outcome "Query" (.object []) [] field =
      match answered field result with
      | .ok value =>
        Evaluation.complete schema ⟨"Query", field.name, field.position⟩
          (Evaluation.object schema outcome field.fields) field.type value [.field field.output]
      | .error fault =>
        (Completion.failed ⟨.fault fault, field.position, [.field field.output]⟩).absorb
          field.type.nullable := by
  have hfield : Evaluation.field schema outcome "Query" (.object []) [] field = _ :=
    Evaluation.field_eq "Query" (.object []) [] field
  rw [if_neg h.name_ne, List.nil_append, h.outcome_eq] at hfield
  exact hfield

/-- A field for films is answered in the same way if the films are alike. Where there are none,
`Parallel` says that the faults are equal, with every word of them. -/
theorem field_alike (houtcome : HasProperties outcome) (houtcome' : HasProperties outcome')
    (hdeclared : field.Throughout (Declared schema) "Query") (h : AsksFilms outcome field result)
    (h' : AsksFilms outcome' field result')
    (hresult : Parallel (List.Forall₂ (Alike field.fields)) result result') :
    Evaluation.field schema outcome "Query" (.object []) [] field =
      Evaluation.field schema outcome' "Query" (.object []) [] field := by
  have hbelow := h.declared hdeclared
  rw [h.field_eq, h'.field_eq]
  cases hresult with
  | error fault => rfl
  | @ok records others halike =>
    rcases h.type_eq with ⟨hall, htype⟩ | ⟨hone, htype⟩
    · simp only [answered, hall, if_true, htype]
      exact complete_films_alike houtcome houtcome' hbelow halike
    · have hne : field.name ≠ "allFilms" := by rw [hone]; decide
      simp only [answered, hne, if_false, htype]
      cases halike with
      | nil => rfl
      | cons hfirst _ => exact complete_alike houtcome houtcome' hbelow hfirst

/-- It shows its films if all that is selected of them fits. -/
theorem field_of_fits (houtcome : HasProperties outcome)
    (hdistinct : PlannedField.DistinctOutputs field.fields)
    (hdeclared : field.Throughout (Declared schema) "Query") {records : List Json}
    (h : AsksFilms outcome field (.ok records))
    (hfits : ∀ record ∈ records, FilmFits field.fields record) :
    Evaluation.field schema outcome "Query" (.object []) [] field =
      .value (filmsView field records) := by
  have hbelow := h.declared hdeclared
  rw [h.field_eq, filmsView]
  rcases h.type_eq with ⟨hall, htype⟩ | ⟨hone, htype⟩
  · simp only [answered, hall, if_true, htype]
    exact Evaluation.complete_items fun part hmem => complete_film houtcome hdistinct hbelow
      (hfits part.1 (List.fst_mem_of_mem_zipIdx hmem))
  · have hne : field.name ≠ "allFilms" := by rw [hone]; decide
    obtain ⟨record, rfl⟩ := h.single hne records rfl
    simp only [answered, hne, if_false, htype]
    exact complete_film houtcome hdistinct hbelow (hfits record List.mem_cons_self)

/-- If there are none, or something does not fit, there is a failure. With `field_of_fits` this
makes `FilmsFit` the exact condition for a field without errors. -/
theorem failures_of_unfit (houtcome : HasProperties outcome)
    (hdeclared : field.Throughout (Declared schema) "Query") (h : AsksFilms outcome field result)
    (hfits : ¬∃ records, result = .ok records ∧ ∀ record ∈ records, FilmFits field.fields record) :
    (Evaluation.field schema outcome "Query" (.object []) [] field).failures ≠ [] := by
  have hbelow := h.declared hdeclared
  rw [h.field_eq]
  cases result with
  | error fault => simp [answered, Completion.failed]
  | ok records =>
    have hunfit : ∃ record ∈ records, ¬FilmFits field.fields record := by
      by_contra hall
      push Not at hall
      exact hfits ⟨records, rfl, hall⟩
    obtain ⟨record, hmem, hunfit⟩ := hunfit
    rcases h.type_eq with ⟨hall, htype⟩ | ⟨hone, htype⟩
    · rw [← List.zipIdx_map_fst 0 records] at hmem
      obtain ⟨part, hpart, rfl⟩ := List.mem_map.mp hmem
      simp only [answered, hall, if_true, htype]
      exact Evaluation.failures_items hpart (failures_film houtcome hbelow hunfit)
    · have hne : field.name ≠ "allFilms" := by rw [hone]; decide
      obtain ⟨single, rfl⟩ := h.single hne records rfl
      obtain rfl := List.mem_singleton.mp hmem
      simp only [answered, hne, if_false, htype]
      exact failures_film houtcome hbelow hunfit

end

/-! ## Queries -/

/-- If a field asks for films in a state, there are some, and all that is selected of them fits. A
field that does not ask for any satisfies this. -/
def FilmsFit (catalog : Catalog) (state : FeedState) (field : PlannedField) : Prop :=
  ∀ films, filmRequest? field = some films →
    ∃ records, catalog.records state.sent films = .ok records ∧
      ∀ record ∈ records, FilmFits field.fields record

/-- If a field asks for films, of one catalog in one state and of another one in another state, both
fail in the same way, which goes for the words too, or have films that are alike as far as they are
selected. How many films there are is part of that. -/
def FilmsAlike (catalog : Catalog) (state : FeedState) (other : Catalog) (state' : FeedState)
    (field : PlannedField) : Prop :=
  ∀ films, filmRequest? field = some films →
    Parallel (List.Forall₂ (Alike field.fields)) (catalog.records state.sent films)
      (other.records state'.sent films)

/-- What a field of the root of queries shows in a state: its films, or what is in the store. The
null for a fault is never seen, since there are errors then (`answer_films`). -/
def shown (catalog : Catalog) (state : FeedState) (field : PlannedField) : Json :=
  match filmRequest? field with
  | some films =>
    match catalog.records state.sent films with
    | .ok records => filmsView field records
    | .error _ => .null
  | none => state.store.member field

section

variable {complain : String → Complaint} {catalog : Catalog} {depthLimit : Nat}
  {request : Request} {plan : Plan}
  {field : PlannedField}

/-- The fields for films of a query ask for them, whatever the catalog and the state. That the limit
is the wanted one needs the field of the document that the planned one comes from
(`planned_plan`). -/
theorem asksFilms_plan (hplan : (engine complain catalog depthLimit).plan request = .ok plan)
    (hkind : plan.kind = .query) (hmem : field ∈ plan.fields) {films : FilmRequest}
    (hrequest : filmRequest? field = some films) (other : Catalog) (state : FeedState) :
    AsksFilms (outcomes other state).of field (other.records state.sent films) := by
  obtain ⟨checker, selections, hschema, -, hplanned⟩ := planned_plan hplan hkind
  obtain ⟨selection, -, hfield⟩ := exists_of_forall₂ hplanned hmem
  obtain ⟨-, hdeclared⟩ := declared_plan hplan (root_of_query hkind)
  exact asksFilms_outcomes (hdeclared field hmem).here hrequest (filmLimit_eq hschema hfield)

/-- The other fields show what is in the store. -/
theorem field_plan (hplan : (engine complain catalog depthLimit).plan request = .ok plan)
    (hkind : plan.kind = .query) (hmem : field ∈ plan.fields)
    (hrequest : filmRequest? field = none) (other : Catalog) (state : FeedState) :
    Evaluation.field schema (outcomes other state).of "Query" (.object []) [] field =
      .value (state.store.member field) := by
  obtain ⟨hdistinct, hdeclared⟩ := declared_plan hplan (root_of_query hkind)
  have hfilm : ¬IsFilm field := by
    rw [← isSome_filmRequest?_iff (hdeclared field hmem).here, hrequest]
    nofun
  exact field_query (hdistinct.inner field hmem) (hdeclared field hmem) hfilm []

/-- With catalogs whose films are alike, in two states with one store, a field is answered in the
same way. If it does not ask for films then the store is all that counts. -/
theorem field_same (hplan : (engine complain catalog depthLimit).plan request = .ok plan)
    (hkind : plan.kind = .query) (hmem : field ∈ plan.fields) {other : Catalog}
    {state state' : FeedState} (hstore : state'.store = state.store)
    (halike : FilmsAlike catalog state other state' field) :
    Evaluation.field schema (outcomes catalog state).of "Query" (.object []) [] field =
      Evaluation.field schema (outcomes other state').of "Query" (.object []) [] field := by
  obtain ⟨-, hdeclared⟩ := declared_plan hplan (root_of_query hkind)
  cases hrequest : filmRequest? field with
  | none => rw [field_plan hplan hkind hmem hrequest, field_plan hplan hkind hmem hrequest, hstore]
  | some films =>
    exact field_alike (hasProperties_outcomes catalog state) (hasProperties_outcomes other state')
      (hdeclared field hmem) (asksFilms_plan hplan hkind hmem hrequest catalog state)
      (asksFilms_plan hplan hkind hmem hrequest other state') (halike films hrequest)

/-- If all films of a field fit, it shows them. -/
theorem field_shown (hplan : (engine complain catalog depthLimit).plan request = .ok plan)
    (hkind : plan.kind = .query) (hmem : field ∈ plan.fields) {state : FeedState}
    (hfits : FilmsFit catalog state field) :
    Evaluation.field schema (outcomes catalog state).of "Query" (.object []) [] field =
      .value (shown catalog state field) := by
  obtain ⟨hdistinct, hdeclared⟩ := declared_plan hplan (root_of_query hkind)
  rw [shown]
  cases hrequest : filmRequest? field with
  | none => exact field_plan hplan hkind hmem hrequest catalog state
  | some films =>
    obtain ⟨records, hrecords, hfits⟩ := hfits films hrequest
    have hasks := asksFilms_plan hplan hkind hmem hrequest catalog state
    rw [hrecords] at hasks
    simp only [hrecords]
    exact field_of_fits (hasProperties_outcomes catalog state) (hdistinct.inner field hmem)
      (hdeclared field hmem) hasks hfits

/-- If they do not, there is a failure; fields that ask for nothing always fit, so the field is one
for films. -/
theorem failures_field (hplan : (engine complain catalog depthLimit).plan request = .ok plan)
    (hkind : plan.kind = .query) (hmem : field ∈ plan.fields) {state : FeedState}
    (hfits : ¬FilmsFit catalog state field) :
    (Evaluation.field schema (outcomes catalog state).of "Query" (.object []) [] field).failures ≠
      [] := by
  obtain ⟨-, hdeclared⟩ := declared_plan hplan (root_of_query hkind)
  rw [FilmsFit] at hfits
  push Not at hfits
  obtain ⟨films, hrequest, hunfit⟩ := hfits
  refine failures_of_unfit (hasProperties_outcomes catalog state) (hdeclared field hmem)
    (asksFilms_plan hplan hkind hmem hrequest catalog state) ?_
  rintro ⟨records, hrecords, hfits⟩
  obtain ⟨record, hrecord, hunfit⟩ := hunfit records hrecords
  exact hunfit (hfits record hrecord)

/-- There are no errors exactly if all films can be shown: a response has the failures of its fields
and no others, and each field is evaluated in the state of its turn (`answer_turns`). -/
theorem errors_eq_nil_iff (hplan : (engine complain catalog depthLimit).plan request = .ok plan)
    (hkind : plan.kind = .query) (state : FeedState) :
    (((engine complain catalog depthLimit).answer request).run state).1.errors = [] ↔
      ∀ field ∈ plan.fields, FilmsFit catalog (state.atTurn catalog plan.fields field) field := by
  have herrors : (((engine complain catalog depthLimit).answer request).run state).1.errors = [] ↔
      ∀ field ∈ plan.fields, (Evaluation.field schema
        (outcomes catalog (state.atTurn catalog plan.fields field)).of "Query" (.object []) []
          field).failures = [] := by
    rw [(answer_turns hplan hkind state).1]
    simp [Response.ofCompletions, Completion.object, Completion.allFailures]
  rw [herrors]
  refine forall₂_congr fun field hmem => ⟨fun hnothing => ?_, fun hfits => ?_⟩
  · by_contra hunfit
    exact failures_field hplan hkind hmem hunfit hnothing
  · rw [field_shown hplan hkind hmem hfits]
    rfl

/-- A query is answered in the same way with two catalogs whose films are alike as far as they are
selected. It is answered without errors exactly if there are films for all fields that ask for them
and all that is selected of these fits, and then its data shows the selected properties as they were
sent. The films of a field are those that come of its request, given what was sent before its turn
(`FeedState.atTurn`); of either catalog nothing is assumed for requests that are not made. -/
theorem answer_films (hplan : (engine complain catalog depthLimit).plan request = .ok plan)
    (hkind : plan.kind = .query) (state : FeedState) :
    let response := (((engine complain catalog depthLimit).answer request).run state).1
    (∀ other : Catalog,
      (∀ field ∈ plan.fields, FilmsAlike catalog (state.atTurn catalog plan.fields field) other
        (state.atTurn other plan.fields field) field) →
      (((engine complain other depthLimit).answer request).run state).1 = response) ∧
    (response.errors = [] ↔
      ∀ field ∈ plan.fields, FilmsFit catalog (state.atTurn catalog plan.fields field) field) ∧
    (response.errors = [] → response.data? = some (view plan.fields fun field =>
      shown catalog (state.atTurn catalog plan.fields field) field)) := by
  refine ⟨fun other halike => ?_, errors_eq_nil_iff hplan hkind state, fun herrors => ?_⟩
  · have hplan' : (engine complain other depthLimit).plan request = .ok plan := hplan
    rw [(answer_turns hplan' hkind state).1, (answer_turns hplan hkind state).1]
    exact congrArg _ (List.map_congr_left fun field hmem =>
      (field_same hplan hkind hmem (by simp) (halike field hmem)).symm)
  · have hfits := (errors_eq_nil_iff hplan hkind state).mp herrors
    have hvalues := List.map_congr_left fun field hmem =>
      field_shown hplan hkind hmem (hfits field hmem)
    obtain ⟨hdistinct, -⟩ := declared_plan hplan (root_of_query hkind)
    rw [(answer_turns hplan hkind state).1, hvalues, Response.ofCompletions,
      Completion.object_of_values _ hdistinct.nodup]
    rfl

end

end Feed

namespace Cinema

/-- A catalog that has a single film, sent as some text, under both names that answers have it
under. -/
def catalog (film : String) : Catalog where
  exchange := fun _ _ _ => .answered 200
    ("\x7b\"data\": \x7b\"movies\": [" ++ film ++ "], \"movie\": " ++ film ++ "\x7d\x7d").toUTF8
  complaint := fun _ => "not JSON"
  base := ⟨"http", some "[::1]:8080", .segments ["api", ""], none, none⟩
  timeout? := none

/-- A film of which only the title is known. -/
def short : String := "\x7b\"title\": \"Night Train\"\x7d"

/-- The same film with more about it, not all of which fits: its genres should be a list. That its
id is no number would not be noticed. -/
def long : String := "\x7b\"id\": \"none\", \"title\": \"Night Train\", \"genres\": null\x7d"

/-- Titles of films, for one of them under two names, and something of the store. -/
def request : Request where
  operationName? := none
  query? := some "{ films: allFilms { title kind: __typename }
    film(id: 7) { name: title title } allAuthors { id } }"
  variables? := none

/-- What the fields of the request ask for. -/
def films : List (Option FilmRequest) := [some (.list 10), some (.details "7"), none]

/-- A field below which only titles are selected. -/
def OfTitles (field : PlannedField) : Prop :=
  ∀ below ∈ field.fields, below.name = PlannedField.typename ∨
    below.name = "title" ∧ below.type = Feed.required "String"

instance (field : PlannedField) : Decidable (OfTitles field) :=
  inferInstanceAs (Decidable (∀ below ∈ field.fields, _))

/-- The request is accepted. This is found by evaluation, which the statement has in the form of a
test so that it is run once. -/
theorem accepted : (((Feed.engine .plain (catalog short) 16).plan request).toOption.any fun plan =>
    decide (plan.kind = .query ∧ plan.fields.map Feed.filmRequest? = films ∧
      ∀ field ∈ plan.fields, Feed.filmRequest? field ≠ none → OfTitles field)) = true := by
  decide +kernel

/-- The title of a record, if it is a text. The names of other members play no part. -/
def title? (record : Json) : Option String := (record.member? "title").bind Json.string?

theorem exists_members {record : Json} {text : String} (h : title? record = some text) :
    ∃ members, record = .object members ∧ Members.get? members "title" = some (.string text) := by
  obtain ⟨value, hvalue, htext⟩ := Option.bind_eq_some_iff.mp h
  cases record with
  | object members =>
    cases value with
    | string other => exact ⟨members, rfl, hvalue.trans (by rw [Option.some.inj htext])⟩
    | _ => cases htext
  | _ => cases hvalue

/-- Both catalogs have one film, with this title. -/
theorem titles_eq : ∀ film ∈ [short, long], ∀ wanted ∈ films.filterMap id,
    (((catalog film).records [] wanted).toOption.any fun records =>
      records.map title? == [some "Night Train"]) = true := by
  decide +kernel

/-- Whatever was sent before, since this makes no difference to these catalogs. -/
theorem exists_record {film : String} (hfilm : film ∈ [short, long]) {wanted : FilmRequest}
    (hwanted : wanted ∈ films.filterMap id) (sent : List Url) :
    ∃ members, (catalog film).records sent wanted = .ok [.object members] ∧
      Members.get? members "title" = some (.string "Night Train") := by
  have htitles := titles_eq film hfilm wanted hwanted
  have hsent : (catalog film).records sent wanted = (catalog film).records [] wanted := by
    cases wanted <;> rfl
  rw [hsent]
  cases hrecords : (catalog film).records [] wanted with
  | error fault => simp [hrecords, Except.toOption] at htitles
  | ok records =>
    simp only [hrecords, Except.toOption, Option.any_some, beq_iff_eq] at htitles
    obtain ⟨record, rest, rfl, htitle, hrest⟩ := List.map_eq_cons_iff.mp htitles
    obtain rfl := List.map_eq_nil_iff.mp hrest
    obtain ⟨members, rfl, hmember⟩ := exists_members htitle
    exact ⟨members, rfl, hmember⟩

section

variable {field : PlannedField} {members others : List (String × Json)} {text : String}

/-- Where only titles are selected, all that is needed is a title. -/
theorem OfTitles.fits (h : OfTitles field)
    (hmember : Members.get? members "title" = some (.string text)) :
    Feed.FilmFits field.fields (.object members) := by
  refine ⟨⟨members, rfl⟩, fun below hbelow hname => ?_⟩
  obtain ⟨htitle, htype⟩ := (h below hbelow).resolve_left hname
  rw [Feed.filmMember, if_neg hname, htitle, htype, Json.member?, hmember]
  rfl

/-- And films with the same title are alike. -/
theorem OfTitles.alike (h : OfTitles field)
    (hmember : Members.get? members "title" = some (.string text))
    (hother : Members.get? others "title" = some (.string text)) :
    Feed.Alike field.fields (.object members) (.object others) := by
  refine .objects fun below hbelow hname => ?_
  obtain ⟨htitle, -⟩ := (h below hbelow).resolve_left hname
  rw [htitle, hmember, hother]

end

/-- Both catalogs lead to the same response, which shows the title. What is said of the properties
that do not fit in `long` is never looked at, because they are not selected. -/
theorem shows_title : ∃ plan, (Feed.engine .plain (catalog short) 16).plan request = .ok plan ∧
    plan.kind = .query ∧ ∀ state,
      let response := (((Feed.engine .plain (catalog short) 16).answer request).run state).1
      (((Feed.engine .plain (catalog long) 16).answer request).run state).1 = response ∧
        response.errors = [] ∧
        response.data? = some (view plan.fields fun field =>
          Feed.shown (catalog short) (state.atTurn (catalog short) plan.fields field) field) := by
  obtain ⟨plan, hplan, h⟩ := Engine.exists_plan accepted
  rw [decide_eq_true_iff] at h
  obtain ⟨hkind, hasked, htitles⟩ := h
  have hfilms : ∀ field ∈ plan.fields, ∀ wanted, Feed.filmRequest? field = some wanted →
      wanted ∈ films.filterMap id ∧ OfTitles field := by
    intro field hmem wanted hwanted
    refine ⟨List.mem_filterMap.mpr ⟨some wanted, ?_, rfl⟩, htitles field hmem (by simp [hwanted])⟩
    rw [← hasked, ← hwanted]
    exact List.mem_map_of_mem hmem
  refine ⟨plan, hplan, hkind, fun state => ?_⟩
  obtain ⟨hsame, herrors, hdata⟩ := Feed.answer_films hplan hkind state
  have hnone := herrors.mpr fun field hmem wanted hwanted => by
    obtain ⟨hwanted, htitles⟩ := hfilms field hmem wanted hwanted
    obtain ⟨members, hrecords, hmember⟩ := exists_record List.mem_cons_self hwanted _
    refine ⟨_, hrecords, fun record hrecord => ?_⟩
    obtain rfl := List.mem_singleton.mp hrecord
    exact htitles.fits hmember
  refine ⟨hsame (catalog long) fun field hmem wanted hwanted => ?_, hnone, hdata hnone⟩
  obtain ⟨hwanted, htitles⟩ := hfilms field hmem wanted hwanted
  obtain ⟨members, hrecords, hmember⟩ := exists_record List.mem_cons_self hwanted _
  obtain ⟨others, hothers, hother⟩ :=
    exists_record (List.mem_cons_of_mem _ List.mem_cons_self) hwanted _
  rw [hrecords, hothers]
  exact .ok (.cons (htitles.alike hmember hother) .nil)

end Cinema

end FeedGraph
