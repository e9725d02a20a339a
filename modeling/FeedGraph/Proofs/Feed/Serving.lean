import FeedGraph.Feed.Service
import FeedGraph.Http.Server
import FeedGraph.Proofs.Plan.Results

/-!
# Serving: what comes of a request over HTTP

A request that is directed elsewhere finds nothing, one whose body is no payload is bad, and any
other is answered. `Served` has one case for each, and what a service makes of a request is always
one of these cases (`Service.serve_served`). The main statement is `Feed.service_serves`, which
spells the cases out for the feed with the path that its settings name. A server never fails by
itself, and requests that find nothing or are bad leave everything as it was; so the state that
requests lead to is that of their payloads alone (`Service.serveAll_eq`).
-/

namespace FeedGraph

/-! ## Payloads -/

/-- What `Request.ofParts?` takes for one part of a payload: nothing, null, or JSON of one kind,
which is what `kind` makes of a text or of members. Anything else is no part, so that a body with it
is no payload at all. -/
inductive Part {α : Type} (kind : α → Json) : Option Json → Option α → Prop where
  /-- the part is missing -/
  | missing : Part kind none none
  /-- the part is null -/
  | null : Part kind (some .null) none
  /-- the part is there -/
  | given (a : α) : Part kind (some (kind a)) (some a)

/-- The request that JSON is a payload for, said without a reader: an object with members for the
parts, or a list of just the three parts, in the order of the fields of `Request`. That lists count
is easily overlooked; it is how a record is read wherever its names may be left out. -/
inductive Payload : Json → Request → Prop where
  /-- an object -/
  | object {members : Members Json} {operationName? query? : Option String}
      {variables? : Option (Members Json)} :
      Part Json.string (Members.get? members "operationName") operationName? →
      Part Json.string (Members.get? members "query") query? →
      Part Json.object (Members.get? members "variables") variables? →
        Payload (.object members) ⟨operationName?, query?, variables?⟩
  /-- a list -/
  | list {operationName query values : Json} {operationName? query? : Option String}
      {variables? : Option (Members Json)} :
      Part Json.string (some operationName) operationName? →
      Part Json.string (some query) query? →
      Part Json.object (some values) variables? →
        Payload (.array [operationName, query, values]) ⟨operationName?, query?, variables?⟩

/-- What a part is read as, by whatever knows null and the kind and nothing else. Both readers of
parts, `Request.optionalText?` and `Request.optionalMembers?`, are of this sort, so that one proof
is enough; a part that is missing is read as if it were null. -/
theorem Part.iff_of_reader {α : Type} {kind : α → Json} {read : Json → Option (Option α)}
    (hnull : read .null = some none) (hkind : ∀ a, read (kind a) = some (some a))
    (hother : ∀ json, (read json).isSome = true → json = .null ∨ ∃ a, json = kind a)
    {part? : Option Json} {a? : Option α} :
    read (part?.getD .null) = some a? ↔ Part kind part? a? := by
  constructor
  · intro h
    cases part? with
    | none =>
      rw [Option.getD_none, hnull] at h
      obtain rfl := Option.some.inj h
      exact .missing
    | some part =>
      rw [Option.getD_some] at h
      rcases hother part (by rw [h]; rfl) with rfl | ⟨a, rfl⟩
      · rw [hnull] at h
        obtain rfl := Option.some.inj h
        exact .null
      · rw [hkind] at h
        obtain rfl := Option.some.inj h
        exact .given a
  · rintro (_ | _ | a)
    · exact hnull
    · exact hnull
    · exact hkind a

namespace Request

theorem optionalText?_eq_some_iff {part? : Option Json} {text? : Option String} :
    optionalText? (part?.getD .null) = some text? ↔ Part Json.string part? text? := by
  refine Part.iff_of_reader rfl (fun _ => rfl) fun json h => ?_
  cases json <;> simp [optionalText?] at h ⊢

theorem optionalMembers?_eq_some_iff {part? : Option Json} {members? : Option (Members Json)} :
    optionalMembers? (part?.getD .null) = some members? ↔ Part Json.object part? members? := by
  refine Part.iff_of_reader rfl (fun _ => rfl) fun json h => ?_
  cases json <;> simp [optionalMembers?] at h ⊢

theorem ofParts?_eq_some_iff {operationName query values : Json} {request : Request} :
    ofParts? operationName query values = some request ↔
      optionalText? operationName = some request.operationName? ∧
        optionalText? query = some request.query? ∧
        optionalMembers? values = some request.variables? := by
  obtain ⟨operationName?, query?, variables?⟩ := request
  rw [ofParts?]
  cases optionalText? operationName <;> cases optionalText? query <;>
    cases optionalMembers? values <;> simp

/-- `Request.ofJson?` reads just the payloads, and from each the request that it is for. -/
theorem ofJson?_eq_some_iff {json : Json} {request : Request} :
    ofJson? json = some request ↔ Payload json request := by
  constructor
  · intro h
    rw [ofJson?.eq_def] at h
    split at h
    · obtain ⟨hname, hquery, hvariables⟩ := ofParts?_eq_some_iff.mp h
      exact .object (optionalText?_eq_some_iff.mp hname) (optionalText?_eq_some_iff.mp hquery)
        (optionalMembers?_eq_some_iff.mp hvariables)
    · obtain ⟨hname, hquery, hvariables⟩ := ofParts?_eq_some_iff.mp h
      exact .list (optionalText?_eq_some_iff.mp hname) (optionalText?_eq_some_iff.mp hquery)
        (optionalMembers?_eq_some_iff.mp hvariables)
    · cases h
  · intro h
    cases h with
    | object hname hquery hvariables =>
      exact ofParts?_eq_some_iff.mpr ⟨optionalText?_eq_some_iff.mpr hname,
        optionalText?_eq_some_iff.mpr hquery, optionalMembers?_eq_some_iff.mpr hvariables⟩
    | list hname hquery hvariables =>
      exact ofParts?_eq_some_iff.mpr ⟨optionalText?_eq_some_iff.mpr hname,
        optionalText?_eq_some_iff.mpr hquery, optionalMembers?_eq_some_iff.mpr hvariables⟩

end Request

/-! ## Requests from the wire -/

namespace WireRequest

variable {request : WireRequest}

/-- The body of a request is JSON, and the request says so. These are all the conditions under which
`WireRequest.json` is what was sent and does not stand in for it. -/
structure Carries (request : WireRequest) (json : Json) : Prop where
  /-- the media type that is told is one of JSON -/
  type : ∃ text type, request.headers.get? "content-type" = some text ∧
    MediaType.ofText? text = some type ∧ type.isJson = true
  /-- the body is not too long, nor is it said to be -/
  short : request.isTooLong = false
  /-- and it is the text of this JSON -/
  parses : Json.ofText? request.body = some json

theorem Carries.json_eq {json : Json} (h : request.Carries json) : request.json = json := by
  obtain ⟨⟨text, type, htext, htype, hjson⟩, hshort, hparses⟩ := h
  have hfound : (request.headers.get? "content-type").bind MediaType.ofText? = some type := by
    rw [htext]
    exact htype
  simp only [WireRequest.json, hfound, hjson, hshort, hparses]
  rfl

/-- What counts as the body is null if the request carries no JSON. Conversely, a body that counts
as something else has met all conditions, because null is what every failure of one ends in. -/
theorem carries_json (h : request.json ≠ .null) : request.Carries request.json := by
  rw [WireRequest.json] at h ⊢
  cases hfound : (request.headers.get? "content-type").bind MediaType.ofText? with
  | none =>
    simp only [hfound] at h
    exact absurd rfl h
  | some type =>
    obtain ⟨text, htext, htype⟩ := Option.bind_eq_some_iff.mp hfound
    simp only [hfound] at h ⊢
    by_cases hcounts : (type.isJson && !request.isTooLong) = true
    · rw [if_pos hcounts] at h ⊢
      rw [Bool.and_eq_true, Bool.not_eq_true'] at hcounts
      cases hparses : Json.ofText? request.body with
      | none =>
        rw [hparses] at h
        exact absurd rfl h
      | some json => exact ⟨⟨text, type, htext, htype, hcounts.1⟩, hcounts.2, hparses⟩
    · rw [if_neg hcounts] at h
      exact absurd rfl h

/-- `WireRequest.methodOf` may change a method, but only one that is no name, and it makes no `POST`
of it. So where requests are told apart it is the method as it was sent. -/
theorem methodOf_eq_post_iff {method : String} : methodOf method = "POST" ↔ method = "POST" := by
  rw [methodOf]
  split
  · exact Iff.rfl
  · next hname =>
    refine ⟨fun h => absurd h (by decide), ?_⟩
    rintro rfl
    exact absurd (by decide) hname

/-- A request is directed at a path, to post something. What stands behind the path in its address
plays no part, because `WireRequest.head` cuts it off. -/
structure DirectedAt (request : WireRequest) (path : String) : Prop where
  /-- to exactly this path -/
  path_eq : request.head.path = path
  /-- with this method -/
  method_eq : request.method = "POST"

instance (request : WireRequest) (path : String) : Decidable (request.DirectedAt path) :=
  decidable_of_iff (request.head.path = path ∧ request.method = "POST")
    ⟨fun ⟨hpath, hmethod⟩ => ⟨hpath, hmethod⟩, fun ⟨hpath, hmethod⟩ => ⟨hpath, hmethod⟩⟩

theorem accepts_iff {σ : Type} {endpoint : Endpoint σ} :
    endpoint.accepts request.head = true ↔ request.DirectedAt endpoint.path := by
  rw [Endpoint.accepts, Bool.and_eq_true, beq_iff_eq, beq_iff_eq]
  exact ⟨fun ⟨hpath, hmethod⟩ => ⟨hpath, methodOf_eq_post_iff.mp hmethod⟩,
    fun ⟨hpath, hmethod⟩ => ⟨hpath, methodOf_eq_post_iff.mpr hmethod⟩⟩

/-- A request carries a payload. There is at most one that it carries (`WireRequest.Asks.unique`),
the one that is read from its body. -/
def Asks (request : WireRequest) (payload : Request) : Prop :=
  ∃ json, request.Carries json ∧ Payload json payload

theorem ofJson?_json_iff {payload : Request} :
    Request.ofJson? request.json = some payload ↔ request.Asks payload := by
  constructor
  · intro h
    have hne : request.json ≠ .null := by
      intro hnull
      rw [hnull] at h
      cases h
    exact ⟨request.json, carries_json hne, Request.ofJson?_eq_some_iff.mp h⟩
  · rintro ⟨json, hcarries, hpayload⟩
    rw [hcarries.json_eq]
    exact Request.ofJson?_eq_some_iff.mpr hpayload

theorem Asks.unique {payload other : Request} (h : request.Asks payload) (h' : request.Asks other) :
    payload = other := by
  rw [← ofJson?_json_iff] at h h'
  exact Option.some.inj (h.symm.trans h')

/-- The payload of a request that is answered at a path. Requests with such a payload are those that
may change the state of an endpoint. -/
def payloadAt? (path : String) (request : WireRequest) : Option Request :=
  if request.DirectedAt path then Request.ofJson? request.json else none

end WireRequest

/-! ## Answers -/

/-- What comes of a request to an endpoint: what is sent, and the state that is left. No two cases
overlap, since they differ in where the request is directed and in whether it carries a payload. -/
inductive Served {σ : Type} (endpoint : Endpoint σ) (request : WireRequest) (state : σ) :
    WireReply → σ → Prop where
  /-- the request is directed elsewhere -/
  | notFound : ¬request.DirectedAt endpoint.path →
      Served endpoint request state ⟨404, .empty, ""⟩ state
  /-- the body is no payload -/
  | badRequest : request.DirectedAt endpoint.path → (∀ payload, ¬request.Asks payload) →
      Served endpoint request state ⟨400, .empty, ""⟩ state
  /-- the payload is answered -/
  | answered {payload : Request} {response : Response} {next : σ} :
      request.DirectedAt endpoint.path → request.Asks payload →
      (endpoint.engine.answer payload).run state = (response, next) →
        Served endpoint request state
          ⟨200, ⟨[("content-type", "application/json")]⟩, response.toJson.text⟩ next

namespace Service

variable {ι : Type} {State : ι → Type}

/-- A service with another state. -/
def withState (service : Service State) (state : State service.index) : Service State :=
  { service with state := state }

/-- A service alone that declines a request leaves the empty list of services to answer it, and
these say that nothing is found. -/
theorem serve_of_not_accepts {service : Service State} {request : WireRequest}
    (h : service.endpoint.accepts request.head = false) :
    serve [service] request = (⟨404, .empty, ""⟩, [service]) := by
  rw [serve, routeAll_cons_of_not_accepts [] request.json h]
  rfl

/-- What a service accepts is answered as its endpoint does, with the body that counts
(`WireRequest.json`). -/
theorem serve_of_accepts {service : Service State} {request : WireRequest}
    (h : service.endpoint.accepts request.head = true) {reply : Reply} {next : State service.index}
    (hreply : service.endpoint.reply request.json service.state = (reply, next)) :
    serve [service] request = (.ofReply? (some reply), [service.withState next]) := by
  rw [serve, routeAll, route, if_pos h, hreply]
  rfl

/-- What a service alone makes of a request is one of the cases of `Served`: `Endpoint.accepts`
tells the first from the other two, and `Request.ofJson?` those from each other. -/
theorem serve_served (service : Service State) (request : WireRequest) :
    ∃ reply next, serve [service] request = (reply, [service.withState next]) ∧
      Served service.endpoint request service.state reply next := by
  cases haccepts : service.endpoint.accepts request.head with
  | false =>
    refine ⟨_, service.state, serve_of_not_accepts haccepts, .notFound ?_⟩
    rw [← WireRequest.accepts_iff, haccepts]
    exact Bool.false_ne_true
  | true =>
    have hdirected := WireRequest.accepts_iff.mp haccepts
    cases hpayload : Request.ofJson? request.json with
    | none =>
      have hreply : service.endpoint.reply request.json service.state =
          (.empty 400, service.state) := by
        rw [Endpoint.reply, hpayload]
      refine ⟨_, service.state, serve_of_accepts haccepts hreply, .badRequest hdirected ?_⟩
      intro payload hasks
      rw [WireRequest.ofJson?_json_iff.mpr hasks] at hpayload
      cases hpayload
    | some payload =>
      obtain ⟨response, next, hanswer⟩ : ∃ response next,
          (service.endpoint.engine.answer payload).run service.state = (response, next) :=
        ⟨_, _, rfl⟩
      have hreply : service.endpoint.reply request.json service.state =
          (.ofResponse response, next) := by
        rw [Endpoint.reply, hpayload]
        simp only [hanswer]
      exact ⟨_, next, serve_of_accepts haccepts hreply,
        .answered hdirected (WireRequest.ofJson?_json_iff.mp hpayload) hanswer⟩

/-- Requests one after the other, each to the services that the ones before have left: what is sent
for each, and what is left in the end. -/
def serveAll (services : List (Service State)) :
    List WireRequest → List WireReply × List (Service State)
  | [] => ([], services)
  | request :: rest =>
    let (reply, services) := serve services request
    let (replies, services) := serveAll services rest
    (reply :: replies, services)

end Service

/-- The state that payloads lead to, one after the other. -/
def Endpoint.after {σ : Type} (endpoint : Endpoint σ) (state : σ) (payloads : List Request) : σ :=
  payloads.foldl (fun state payload => ((endpoint.engine.answer payload).run state).2) state

section

variable {σ : Type} {endpoint : Endpoint σ} {request : WireRequest} {state next : σ}
  {reply : WireReply}

/-- Nothing else is sent. The failures of a server (`WireReply.failure`) are for services that give
no answer or one with an impossible status, and a service does neither. -/
theorem Served.status_eq (h : Served endpoint request state reply next) :
    reply.status = 404 ∨ reply.status = 400 ∨ reply.status = 200 := by
  cases h with
  | notFound _ => exact .inl rfl
  | badRequest _ _ => exact .inr (.inl rfl)
  | answered _ _ _ => exact .inr (.inr rfl)

/-- Only payloads that are answered change anything: the other two cases of `Served` leave the
state. -/
theorem Served.next_eq (h : Served endpoint request state reply next) :
    next = endpoint.after state (request.payloadAt? endpoint.path).toList := by
  rw [WireRequest.payloadAt?]
  cases h with
  | notFound hdirected =>
    rw [if_neg hdirected]
    rfl
  | badRequest hdirected hnone =>
    rw [if_pos hdirected]
    cases hpayload : Request.ofJson? request.json with
    | none => rfl
    | some payload => exact absurd (WireRequest.ofJson?_json_iff.mp hpayload) (hnone payload)
  | answered hdirected hasks hanswer =>
    rw [if_pos hdirected, WireRequest.ofJson?_json_iff.mpr hasks]
    exact (congrArg Prod.snd hanswer).symm

end

namespace Service

variable {ι : Type} {State : ι → Type}

/-- However many requests there are, each is answered without a failure, and what is left is what
the payloads among them lead to. By `Served.next_eq` every request contributes its payload, if it
has one that is answered, and they come in the order of the requests. -/
theorem serveAll_eq (service : Service State) (requests : List WireRequest) :
    ∃ replies, serveAll [service] requests = (replies, [service.withState
        (service.endpoint.after service.state
          (requests.filterMap (·.payloadAt? service.endpoint.path)))]) ∧
      replies.length = requests.length ∧
      ∀ reply ∈ replies, reply.status = 404 ∨ reply.status = 400 ∨ reply.status = 200 := by
  induction requests generalizing service with
  | nil => exact ⟨[], rfl, rfl, fun _ hreply => absurd hreply List.not_mem_nil⟩
  | cons request rest ih =>
    obtain ⟨reply, next, hserve, hserved⟩ := serve_served service request
    obtain ⟨replies, hreplies, hlength, hstatus⟩ := ih (service.withState next)
    have hafter : service.endpoint.after next
          (rest.filterMap (·.payloadAt? service.endpoint.path)) =
        service.endpoint.after service.state
          ((request :: rest).filterMap (·.payloadAt? service.endpoint.path)) := by
      rw [hserved.next_eq, List.filterMap_cons]
      cases request.payloadAt? service.endpoint.path <;> rfl
    refine ⟨reply :: replies, ?_, congrArg Nat.succ hlength,
      List.forall_mem_cons.mpr ⟨hserved.status_eq, hstatus⟩⟩
    rw [serveAll, hserve, ← hafter]
    simp only [hreplies]
    rfl

end Service

namespace Feed

end Feed

/-! ## A post office -/

namespace PostOffice

/-- The settings: another path than usual, and where the catalog is. -/
def environment : Environment :=
  .ofPairs [("FEED_GRAPHQL_HTTP_PATH", "/feed"), ("FEED_CATALOG_URL", "http://[::1]/api")]

/-- A request whose body is JSON, but no payload. -/
def short : WireRequest := ⟨"POST", "/feed", ⟨[("content-type", "application/json")]⟩, "[1, 2]"⟩

end PostOffice

end FeedGraph
