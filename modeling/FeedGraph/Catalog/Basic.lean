import FeedGraph.Catalog.Exchange
import FeedGraph.Url.Basic

/-!
# Catalog: the remote catalog of films

A request to the catalog is for a list of films or for one film. Each is asked for once: what the
catalog answers is not kept, and what failed is not tried again.

How a request gets to the catalog and back is a parameter (`Transport`). What comes of a request may
depend on all that was sent before it, so that nothing is assumed of a catalog: it may answer the
same request with films, then with a fault, and then with other films.
-/

namespace FeedGraph

/-- A request to the catalog. -/
inductive FilmRequest where
  /-- at most so many films -/
  | list (limit : Nat)
  /-- the film with an id -/
  | details (id : String)
  deriving DecidableEq

namespace FilmRequest

def resource : FilmRequest → String
  | .list _ => "list_movies.json"
  | .details _ => "movie_details.json"

def parameter : FilmRequest → String
  | .list _ => "limit"
  | .details _ => "movie_id"

/-- The value of the parameter, which is put into the query of the address. -/
def argument : FilmRequest → String
  | .list limit => toString limit
  | .details id => id

end FilmRequest

/-- How addresses are asked for. Nothing of this is decided here. -/
structure Transport where
  /-- what comes of asking for an address within a time, given the addresses that were asked for
  before, in order -/
  exchange : List Url → Url → Option Nat → Exchange
  /-- what is said of a body that is not JSON -/
  complaint : ByteArray → String

/-- A catalog and the way to it. -/
structure Catalog extends Transport where
  /-- where it is -/
  base : Url
  /-- how long it may take, in milliseconds, if that is limited -/
  timeout? : Option Nat

namespace Catalog

/-- The address of what a request is for. There is none if the base is of a kind that has no path;
then nothing is sent. -/
def url (catalog : Catalog) (request : FilmRequest) : Except CatalogFault Url :=
  match catalog.base.resource? request.resource request.parameter request.argument with
  | some url => .ok url
  | none => .error (.invalidUrl catalog.base.text)

/-- What comes of a request within a time, if so much was sent before it. -/
def ask (catalog : Catalog) (sent : List Url) (request : FilmRequest) (timeout? : Option Nat) :
    Except CatalogFault Exchange :=
  (catalog.url request).map fun url => catalog.exchange sent url timeout?

def films (catalog : Catalog) (sent : List Url) (limit : Nat) (timeout? : Option Nat) :
    Except CatalogFault (List Json) :=
  (catalog.ask sent (.list limit) timeout?).bind (Exchange.films catalog.complaint)

def film (catalog : Catalog) (sent : List Url) (id : String) (timeout? : Option Nat) :
    Except CatalogFault (Members Json) :=
  (catalog.ask sent (.details id) timeout?).bind (Exchange.film catalog.complaint)

end Catalog

end FeedGraph
