import FeedGraph.Execution.Engine
import FeedGraph.Http.Headers
import FeedGraph.Json.Writer

/-!
# Router: which endpoint answers a request

An endpoint takes requests to one path with one method. The body of a request can be taken only
once; what is left in its place is null. Services are tried in order, and one that declines a
request leaves its body and its own state alone.
-/

namespace FeedGraph

/-- What a request is directed at: the part of it by which services decide whether it is theirs. -/
structure Head where
  /-- the method -/
  method : String
  /-- the path -/
  path : String
  deriving DecidableEq

/-- An answer to a request. -/
structure Reply where
  /-- the status -/
  status : Nat
  /-- the header fields -/
  headers : Headers
  /-- the body, if there is one -/
  body? : Option String
  deriving DecidableEq

namespace Reply

/-- An answer that is only a status. -/
def empty (status : Nat) : Reply := ⟨status, .empty, none⟩

/-- An answer with the text of a response, or a failure if it could not be written. A response is
JSON whatever it tells, so its status is that of success also if it tells of errors. -/
def ofText? : Option String → Reply
  | some text => ⟨200, Headers.empty.insert "content-type" "application/json", some text⟩
  | none => .empty 500

/-- A response as an answer. Only the first case of `Reply.ofText?` is met, because all JSON can be
written. -/
def ofResponse (response : Response) : Reply := .ofText? (some response.toJson.text)

end Reply

/-- A place where requests are answered. Its path is compared as a text, so that it is met by one
way of writing only. -/
structure Endpoint (σ : Type) where
  /-- the path it answers at -/
  path : String
  /-- what answers -/
  engine : Engine σ

namespace Endpoint

variable {σ : Type}

/-- Whether a request is directed at an endpoint: at its path, with the one method that it has. -/
def accepts (endpoint : Endpoint σ) (head : Head) : Bool :=
  head.path == endpoint.path && head.method == "POST"

/-- The answer to a body, and the state it leaves. What is no request is not given to the engine,
and so it changes nothing. -/
def reply (endpoint : Endpoint σ) (body : Json) (state : σ) : Reply × σ :=
  match Request.ofJson? body with
  | none => (.empty 400, state)
  | some request =>
    let (response, state) := (endpoint.engine.answer request).run state
    (.ofResponse response, state)

end Endpoint

/-- An endpoint with its state. The states of different services may be of different types, those of
a family; the index says of which. -/
structure Service {ι : Type} (State : ι → Type) where
  /-- the index of its type of states -/
  index : ι
  /-- the endpoint -/
  endpoint : Endpoint (State index)
  /-- the state -/
  state : State index

namespace Service

variable {ι : Type} {State : ι → Type}

/-- What a service makes of a request: its answer unless it declines, and what is left of the body
and of the service. Only a service that answers takes the body, and null is left in its place. -/
def route (service : Service State) (head : Head) (body : Json) :
    Option Reply × Json × Service State :=
  if service.endpoint.accepts head then
    let (reply, state) := service.endpoint.reply body service.state
    (some reply, .null, { service with state := state })
  else (none, body, service)

/-- What services make of a request, the first that does not decline answering it. Those behind it
are not tried; if none is left then nothing is found. -/
def routeAll : List (Service State) → Head → Json → Reply × Json × List (Service State)
  | [], _, body => (.empty 404, body, [])
  | service :: rest, head, body =>
    match service.route head body with
    | (some reply, body, service) => (reply, body, service :: rest)
    | (none, body, service) =>
      let (reply, body, rest) := routeAll rest head body
      (reply, body, service :: rest)

/-- A service that declines leaves the body and itself alone: `Endpoint.accepts` is asked before
anything is taken. -/
theorem route_of_not_accepts {service : Service State} {head : Head} (body : Json)
    (h : service.endpoint.accepts head = false) :
    service.route head body = (none, body, service) := by
  rw [route, if_neg (by rw [h]; exact Bool.false_ne_true)]

@[simp] theorem routeAll_nil (head : Head) (body : Json) :
    routeAll ([] : List (Service State)) head body = (.empty 404, body, []) := rfl

/-- A request that the first service declines goes to the others as it is. An induction on the
services needs no more than this and its counterpart for a service that accepts. -/
theorem routeAll_cons_of_not_accepts {service : Service State} {head : Head}
    (rest : List (Service State)) (body : Json) (h : service.endpoint.accepts head = false) :
    routeAll (service :: rest) head body =
      ((routeAll rest head body).1, (routeAll rest head body).2.1,
        service :: (routeAll rest head body).2.2) := by
  rw [routeAll, route_of_not_accepts body h]

end Service

end FeedGraph
