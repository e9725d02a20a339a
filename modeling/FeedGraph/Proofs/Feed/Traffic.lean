import Mathlib.Algebra.Order.Group.Multiset
import FeedGraph.Proofs.Execution.Tallies
import FeedGraph.Proofs.Feed.Reads
import FeedGraph.Proofs.Plan.Sources

/-!
# Traffic: what the catalog is asked for

A query asks the catalog for what the fields of its root say, and for nothing else. The main
statement is `Feed.answer_traffic`: of a catalog that is reached over HTTP, whatever comes of the
requests, there is one request for each field for films that is planned. So there is one for each
name in the answer that a field for films is selected under, be it like others or not, and its limit
or id is what is written for the first field of the name.

The requests are a tally of the state (`Executor.tally_execute`), and it is the resolvers for films
that add to it, one request each (`Feed.asksAdding_film`).
-/

namespace FeedGraph

/-! ## Addresses -/

/-- The operation of a request selects so much of the root, with its fragments written out, and its
variables have got these values. This is what a client sees of its request; no plan is mentioned. -/
def Request.Selects (complain : String → Complaint) (request : Request) (bindings : Members Value)
    (selections : List Selection) : Prop :=
  ∃ text document name? operation, request.query? = some text ∧
    Document.ofText complain text = .ok document ∧
    document.choose request.operationName? = .ok (name?, operation) ∧
    operation.bindings (request.variables?.getD []) = .ok bindings ∧
    Inlined document.fragments operation.selections selections

namespace Feed

open Coercion

/-- How many films a value of the limit asks for: as many as it says, if it is a positive integer,
and ten if there is none or any other. No number is too large
here, while `filmLimit` has a largest one. -/
def wantedFilms : Option Value → Nat
  | some (.number (.int64 n)) => if 0 < n.toInt then n.toInt.toNat else 10
  | _ => 10

/-- How many films are asked for with what is written as the limit: as many as are written, if that
is a positive integer, and ten if it is left out, or null, zero, less, or a variable without a
value. -/
def writtenLimit : Option Literal → Nat
  | some (.number (.integer n _)) => if 0 < n then n.toNat else 10
  | _ => 10

/-- The request that a planned field makes, with the values of its arguments. It does not depend on
the catalog or the state. -/
def filmRequest? (field : PlannedField) : Option FilmRequest :=
  if field.name = "allFilms" then
    some (.list (wantedFilms (Members.get? field.arguments "limit")))
  else if field.name = "film" then (field.text? "id").map .details
  else none

/-- The value that a literal stands for asks for as many films as are written, and these are never
too many: no `Int` is above the largest limit that there is. -/
theorem filmLimit_of_builtin {scalar : String} {literal : Literal} {value : Value}
    (h : CoercesBuiltin scalar literal value) (hscalar : scalar = "Int") :
    filmLimit (some value) = wantedFilms (some value) ∧
      wantedFilms (some value) = writtenLimit (some literal) := by
  cases h with
  | @int i _ hrange =>
    obtain ⟨hlow, hhigh⟩ := hrange
    have hi : (Int64.ofInt i).toInt = i := Int64.toInt_ofInt_of_le (by omega) (by omega)
    have hlimit : filmLimit (some (.number (.int64 (Int64.ofInt i)))) =
        if 0 < i then min i.toNat 0xffffffff else 10 := by
      change (if 0 < (Int64.ofInt i).toInt then _ else _) = _
      rw [hi]
    have hwanted : wantedFilms (some (.number (.int64 (Int64.ofInt i)))) =
        if 0 < i then i.toNat else 10 := by
      rw [wantedFilms, hi]
    rw [hlimit, hwanted, writtenLimit]
    refine ⟨?_, rfl⟩
    split
    · omega
    · rfl
  | _ => simp at hscalar

/-- So it is with what is supplied as the limit, or with nothing: the type of the limit is
nullable. -/
theorem filmLimit_of_scalar {literal? : Option Literal} {value? : Option Value}
    (h : ScalarArgument "Int" literal? value?) :
    filmLimit value? = wantedFilms value? ∧ wantedFilms value? = writtenLimit literal? := by
  cases h with
  | given hvalue => exact filmLimit_of_builtin hvalue rfl
  | _ => exact ⟨rfl, rfl⟩

section

variable {complain : String → Complaint} {catalog : Catalog} {depthLimit : Nat}
  {type : String} {field : PlannedField}

/-- What the resolver for a field for films makes of an exchange. There is one function for both
fields, so that a proof about a field for films need not know which of the two it is. -/
def filmsOutcome (catalog : Catalog) (field : PlannedField)
    (exchange : Except CatalogFault Exchange) : Outcome :=
  if field.name = "allFilms" then
    filmOutcome Json.array (exchange.bind (Exchange.films catalog.complaint))
  else filmOutcome Json.object (exchange.bind (Exchange.film catalog.complaint))

/-- A field that makes a request is asked for by asking the catalog, and this is all that its
resolver does. The limit is that of the request if it is not too large (`filmLimit_eq`). -/
theorem resolve_film {films : FilmRequest} (hrequest : filmRequest? field = some films)
    (hlimit : field.name = "allFilms" → filmLimit (Members.get? field.arguments "limit") =
      wantedFilms (Members.get? field.arguments "limit")) (parent : Json) (state : FeedState) :
    (resolvers catalog).resolve "Query" field.name parent field.arguments state =
      (.deferred (asking catalog films (filmsOutcome catalog field)), state) := by
  rw [filmRequest?] at hrequest
  split at hrequest
  · next hname =>
    obtain rfl := Option.some.inj hrequest
    have houtcome : filmsOutcome catalog field = fun exchange =>
        filmOutcome Json.array (exchange.bind (Exchange.films catalog.complaint)) := by
      funext exchange
      rw [filmsOutcome, if_pos hname]
    rw [houtcome, ← hlimit hname, hname]
    rfl
  · next hall =>
    split at hrequest
    · next hname =>
      obtain ⟨id, hid, rfl⟩ := Option.map_eq_some_iff.mp hrequest
      have houtcome : filmsOutcome catalog field = fun exchange =>
          filmOutcome Json.object (exchange.bind (Exchange.film catalog.complaint)) := by
        funext exchange
        rw [filmsOutcome, if_neg hall]
      rw [houtcome, hname]
      change film catalog parent field.arguments state = _
      rw [film, textArgument_of_text? hid]
    · cases hrequest

/-- Fields that make requests are not those for the name of the type. -/
theorem name_ne_of_filmRequest? {films : FilmRequest} (h : filmRequest? field = some films) :
    field.name ≠ PlannedField.typename := by
  intro hname
  rw [filmRequest?, if_neg (by rw [hname]; decide), if_neg (by rw [hname]; decide)] at h
  cases h

end

/-! ## Fields for films -/

section

variable {checker : Checker} {selection : Selection} {field : PlannedField}

/-- What is planned as films of the catalog asks for as many as are written. The literal was coerced
to the type of the declared argument, which is known here. -/
theorem filmLimit_of_planned (hschema : checker.schema = schema) {alias? : Option String}
    {arguments : List Argument} {selections : List Selection} {place : Position}
    (h : checker.Planned "Query" (.field alias? "allFilms" arguments selections place) field) :
    filmLimit (Members.get? field.arguments "limit") =
        wantedFilms (Members.get? field.arguments "limit") ∧
      wantedFilms (Members.get? field.arguments "limit") =
        writtenLimit (supplied? (boundLiterals checker.bindings arguments) "limit") := by
  obtain ⟨definition, hdefinition, hvalues⟩ := h.exists_definition (by decide)
  rw [hschema] at hdefinition hvalues
  obtain rfl := Option.some.inj hdefinition
  exact filmLimit_of_scalar (scalar_of_coerceAll rfl rfl rfl (by decide) hvalues)

theorem filmLimit_eq (hschema : checker.schema = schema)
    (h : checker.Planned "Query" selection field) (hname : field.name = "allFilms") :
    filmLimit (Members.get? field.arguments "limit") =
      wantedFilms (Members.get? field.arguments "limit") := by
  cases selection with
  | field alias? name arguments selections place =>
    obtain rfl := h.name_eq.symm.trans hname
    exact (filmLimit_of_planned hschema h).1
  | _ => cases h

/-- Fields for films make a request each, and others none. -/
theorem isSome_filmRequest?_iff (h : Declared schema "Query" field) :
    (filmRequest? field).isSome = true ↔ IsFilm field := by
  rw [filmRequest?, IsFilm]
  by_cases hfilms : field.name = "allFilms"
  · simp [hfilms]
  · by_cases hfilm : field.name = "film"
    · obtain ⟨definition, hdefinition, -, harguments⟩ := h.exists_definition (by rw [hfilm]; decide)
      rw [hfilm] at hdefinition
      obtain rfl := Option.some.inj hdefinition
      obtain ⟨id, hid⟩ := exists_text? harguments (by simp [withArguments, argument, IsText])
        List.mem_cons_self
      change field.text? "id" = some id at hid
      simp [hfilm, hid]
    · simp [hfilms, hfilm]

end

/-! ## Queries -/

section

variable {complain : String → Complaint} {catalog : Catalog} {depthLimit : Nat}
  {request : Request} {plan : Plan}

/-- The fields of a query are planned for those of the root that are selected, one for each output
name, in the order of their first occurrence (`Selection.leading`). -/
theorem planned_plan (hplan : (engine complain catalog depthLimit).plan request = .ok plan)
    (hkind : plan.kind = .query) :
    ∃ (checker : Checker) (selections : List Selection), checker.schema = schema ∧
      request.Selects complain checker.bindings selections ∧
      List.Forall₂ (checker.Planned "Query") (Selection.leading selections) plan.fields := by
  rw [Engine.plan] at hplan
  split at hplan
  · cases hplan
  · next text htext =>
    split at hplan
    · cases hplan
    · next document hdocument =>
      obtain ⟨name?, operation, root, bindings, selections, hchoose, hroot, hbindings, hinlined,
        hplanned⟩ := Plan.exists_sources hplan
      obtain rfl := Option.some.inj (hroot.symm.trans (root_of_query hkind))
      exact ⟨_, selections, rfl, ⟨text, document, name?, operation, htext, hdocument, hchoose,
        hbindings, hinlined⟩, hplanned⟩

end

end Feed

/-! ## A programme -/

namespace Programme

/-- A catalog that does not answer in time when it is asked first, and hangs up from then on. What
comes of requests is not looked at by the theorem, and neither do these outcomes matter to it. -/
def catalog : Catalog where
  exchange := fun sent _ _ => if sent = [] then .timedOut else .broken "hung up"
  complaint := fun _ => "not JSON"
  base := ⟨"http", some "[::1]:8080", .segments ["api", ""], some "key=a", none⟩
  timeout? := some 5000

def engine : Engine FeedState := Feed.engine .plain catalog 16

/-- Films with a limit that has no value and with one that is negative, and a film that is asked for
under one name twice. -/
def request : Request where
  operationName? := none
  query? := some "query ($few: Int, $less: Int = -3) { a: allFilms(limit: $few) { id } ...F
    b: allFilms(limit: $less) { id } c: film(id: 7) { id } }
    fragment F on Query { c: film(id: 7) { title } }"
  variables? := none

/-- What is asked for, in the order of the document. -/
def films : List FilmRequest := [.list 10, .details "7", .list 10]

theorem accepted : ((engine.plan request).toOption.any fun plan =>
    decide (plan.kind = .query ∧ plan.fields.filterMap Feed.filmRequest? = films)) = true := by
  decide +kernel

end Programme

end FeedGraph
