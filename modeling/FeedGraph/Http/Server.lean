import FeedGraph.Http.MediaType
import FeedGraph.Http.Router
import FeedGraph.Json.Reader
import FeedGraph.Number.IntegerFormat

/-!
# Server: requests as they come over the wire

Of the address of a request only the path counts, as it is written. The body counts only if it is
said to be JSON, and is, and is neither too long nor said to be; otherwise it is null.

What is said here is what services make of the requests that reach them. The program that listens
for requests puts one step in front of that, which belongs to how it is put together and is left
out: it rewrites the path of every request, so that slashes at its end are taken away and several in
a row become one. A path that is set with a slash at its end is therefore never met by that program,
and a request to the usual path with one more slash is.
-/

namespace FeedGraph

/-- A request as it was received. -/
structure WireRequest where
  /-- the method -/
  method : String
  /-- the address -/
  uri : String
  /-- the header fields -/
  headers : Headers
  /-- the body -/
  body : String

namespace WireRequest

/-- What stands behind the authority of an address that has one; a slash if that is nothing, which
is the path of the root. -/
def pathBehindAuthority (chars : List Char) : List Char :=
  match chars.dropWhile (· ≠ '/') with
  | [] => ['/']
  | path => path

/-- The path of an address that begins with it, or of one with a scheme. An address that is only an
authority, as it is sent to proxies, has none. -/
def pathOf (chars : List Char) : List Char :=
  match chars with
  | '/' :: _ => chars
  | ['*'] => chars
  | _ =>
    match chars.dropWhile (· ≠ ':') with
    | ':' :: '/' :: '/' :: rest => pathBehindAuthority rest
    | _ => []

/-- The name of a method. A method that is no token cannot be sent; in its place stands the one that
a request has if nobody chooses one. -/
def methodOf (method : String) : String :=
  if !method.isEmpty && method.toList.all MediaType.isToken then method else "GET"

/-- What a request is directed at: its method, and the path as it is written, without query and
fragment and with all escapes in it. -/
def head (request : WireRequest) : Head :=
  ⟨methodOf request.method,
    String.ofList (pathOf (request.uri.toList.takeWhile fun c => c ≠ '?' ∧ c ≠ '#'))⟩

/-- A body may have this many bytes. -/
def bodyLimit : Nat := 2097152

/-- The length of the body, if the headers tell one. A length that is no number of 64 bits counts as
none. -/
def announcedLength? (request : WireRequest) : Option Nat := do
  let text ← request.headers.get? "content-length"
  let length ← (IntegerFormat.natural64.read text.toList).toOption
  return length.toNat

/-- Whether a body is too long, or is said to be. What is said is believed before anything is
read. -/
def isTooLong (request : WireRequest) : Bool :=
  request.body.utf8ByteSize > bodyLimit || request.announcedLength?.any (· > bodyLimit)

/-- The body as JSON. If any condition fails then it is null, and so is the body for an endpoint
that looks at it; nothing tells a body that is missing from one of the wrong kind. -/
def json (request : WireRequest) : Json :=
  match (request.headers.get? "content-type").bind MediaType.ofText? with
  | none => .null
  | some type =>
    if type.isJson && !request.isTooLong then
      (Json.ofText? request.body).getD .null
    else .null

end WireRequest

/-- An answer as it is sent. -/
structure WireReply where
  /-- the status -/
  status : Nat
  /-- the header fields -/
  headers : Headers
  /-- the body -/
  body : String
  deriving DecidableEq

namespace WireReply

/-- An answer for a failure of the server itself, in words. -/
def failure (message : String) : WireReply :=
  ⟨500, .empty, "\x7b\"errors\": [\x7b\"message\":\"" ++ message ++ "\"\x7d]\x7d"⟩

/-- What is sent for an answer, if there is one. Its status has to be one of three digits; a body
that is missing is empty. Both failures are words in a text of JSON that is put together by hand. -/
def ofReply? : Option Reply → WireReply
  | none => failure "Error resolving request"
  | some reply =>
    if 100 ≤ reply.status ∧ reply.status < 1000 then
      ⟨reply.status, reply.headers, reply.body?.getD ""⟩
    else failure "Invalid status code"

end WireReply

/-- What services make of a request from the wire. There always is an answer, if only that nothing
is found, so that `WireReply.ofReply?` is never given none. -/
def Service.serve {ι : Type} {State : ι → Type} (services : List (Service State))
    (request : WireRequest) : WireReply × List (Service State) :=
  let (reply, _, services) := Service.routeAll services request.head request.json
  (.ofReply? (some reply), services)

end FeedGraph
