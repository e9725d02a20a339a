import FeedGraph.Json.Reader

/-!
# Exchange: what comes of asking the catalog

An exchange may fail, take too long, or end with a status and a body. What is asked for is found
inside the body: under `data`, films are a list and one film is an object. Everything else is a
fault, and of several faults the one that comes up first counts.

Two faults are put in words by others: why an exchange broke is told by whoever carried it
(`Exchange.broken`), and what is wrong with a body that is no JSON by whoever reads JSON. The former
comes with the exchange. The latter is a parameter, `complaint`, of everything that reads a body.
-/

namespace FeedGraph

/-- What comes of one request to the catalog. -/
inductive Exchange where
  /-- the request or the answer did not get through, for a reason that is told -/
  | broken (reason : String)
  /-- there was no answer in time -/
  | timedOut
  /-- the catalog answered -/
  | answered (status : Nat) (body : ByteArray)

/-- Why there are no films. -/
inductive CatalogFault where
  /-- the address of the catalog is one to which nothing can be added -/
  | invalidUrl (url : String)
  /-- the catalog was not reached, for a reason that is told -/
  | unreachable (reason : String)
  /-- the catalog did not answer in time -/
  | timedOut
  /-- the catalog answered with a status other than success -/
  | status (code : Nat)
  /-- the body is not JSON, and what is wrong with it -/
  | malformed (reason : String)
  /-- what is asked for is not in the body, or null -/
  | missing (path : List String)
  /-- what is asked for is something else -/
  | unexpected (path : List String) (expected : String)
  deriving DecidableEq

namespace CatalogFault

def pathText (path : List String) : String := ".".intercalate path

/-- The wording of a fault. A reason that comes from elsewhere stands at its end, as it was told. -/
def message : CatalogFault → String
  | .invalidUrl url => s!"Catalog URL '{url}' cannot have a path"
  | .unreachable reason => s!"Failed to reach the film catalog: {reason}"
  | .timedOut => "The film catalog did not respond in time"
  | .status code => s!"The film catalog responded with status {code}"
  | .malformed reason => s!"Failed to parse the film catalog response: {reason}"
  | .missing path => s!"The film catalog response has no `{pathText path}`"
  | .unexpected path expected =>
    s!"The film catalog response has `{pathText path}` that is not {expected}"

end CatalogFault

namespace Exchange

/-- The value inside a body, if the exchange ended well. The status counts before the body: a body
is read only behind a status of success. -/
def content (complaint : ByteArray → String) : Exchange → Except CatalogFault Json
  | .broken reason => .error (.unreachable reason)
  | .timedOut => .error .timedOut
  | .answered status body =>
    if 200 ≤ status ∧ status < 300 then
      match Json.ofBytes? body with
      | some json => .ok json
      | none => .error (.malformed (complaint body))
    else .error (.status status)

/-- What is found by following names from a value; null counts as nothing, at each of the names. -/
def follow : List String → Json → Option Json
  | [], json => some json
  | name :: rest, json =>
    match json.member? name with
    | none => none
    | some .null => none
    | some value => follow rest value

def extract (complaint : ByteArray → String) (exchange : Exchange) (path : List String) :
    Except CatalogFault Json := do
  let body ← exchange.content complaint
  match follow path body with
  | some value => return value
  | none => throw (.missing path)

def filmsPath : List String := ["data", "movies"]

def filmPath : List String := ["data", "movie"]

/-- The films of an answer to a request for a list, as they were sent. They are not looked into:
what a film lacks is found out when it is completed. -/
def films (complaint : ByteArray → String) (exchange : Exchange) :
    Except CatalogFault (List Json) := do
  match ← exchange.extract complaint filmsPath with
  | .array films => return films
  | _ => throw (.unexpected filmsPath "a list")

def film (complaint : ByteArray → String) (exchange : Exchange) :
    Except CatalogFault (Members Json) := do
  match ← exchange.extract complaint filmPath with
  | .object members => return members
  | _ => throw (.unexpected filmPath "an object")

end Exchange

end FeedGraph
