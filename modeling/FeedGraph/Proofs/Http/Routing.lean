import FeedGraph.Proofs.Feed.Serving
import FeedGraph.Schema.Reader

/-!
# Routing: services side by side

Services are tried in turn for a request, and share its body, which can be taken only once. The
first that the request is directed at takes it, and answers as it would if it were the only one;
those before it leave the body where it is, and those behind it are never asked. What carries this
through is that services which decline can be left out (`Service.routeAll_append`). The main
statement is `Service.routeAll_first`.

Since a request is directed at paths, and no answer changes a path, it is settled beforehand where
each of many requests comes to (`Service.place?_routeAll`). So a service answers its requests as if
there were no others (`Service.serveAll_apart`).
-/

namespace FeedGraph

/-- A request is directed at a path, to post something. This is `Endpoint.accepts` as a proposition,
for the path of the endpoint; the body plays no part in it. -/
structure Head.PostsTo (head : Head) (path : String) : Prop where
  /-- to exactly this path -/
  path_eq : head.path = path
  /-- with this method -/
  method_eq : head.method = "POST"

instance (head : Head) (path : String) : Decidable (head.PostsTo path) :=
  decidable_of_iff (head.path = path ∧ head.method = "POST")
    ⟨fun h => ⟨h.1, h.2⟩, fun h => ⟨h.path_eq, h.method_eq⟩⟩

namespace Endpoint

variable {σ : Type} {endpoint : Endpoint σ} {head : Head} {body : Json} {state next : σ}
  {reply : Reply}

theorem accepts_iff_postsTo : endpoint.accepts head = true ↔ head.PostsTo endpoint.path := by
  rw [accepts, Bool.and_eq_true, beq_iff_eq, beq_iff_eq]
  exact ⟨fun h => ⟨h.1, h.2⟩, fun h => ⟨h.path_eq, h.method_eq⟩⟩

theorem accepts_eq_false_iff : endpoint.accepts head = false ↔ ¬head.PostsTo endpoint.path := by
  rw [← accepts_iff_postsTo, Bool.not_eq_true]

/-- What an endpoint makes of a body that it is given, from a state: the constructors are the ways
in which `Endpoint.reply` can go, each with the state that is left. -/
inductive Answers (endpoint : Endpoint σ) (body : Json) (state : σ) : Reply → σ → Prop where
  /-- the body is no payload -/
  | badRequest : (∀ payload, ¬Payload body payload) → Answers endpoint body state (.empty 400) state
  /-- the body is a payload -/
  | answered {payload : Request} {response : Response} {next : σ} : Payload body payload →
      (endpoint.engine.answer payload).run state = (response, next) →
        Answers endpoint body state (.ofResponse response) next

theorem answers_reply (endpoint : Endpoint σ) (body : Json) (state : σ) :
    endpoint.Answers body state (endpoint.reply body state).1 (endpoint.reply body state).2 := by
  rw [reply]
  cases hpayload : Request.ofJson? body with
  | none =>
    refine .badRequest fun payload h => ?_
    rw [Request.ofJson?_eq_some_iff.mpr h] at hpayload
    cases hpayload
  | some payload => exact .answered (Request.ofJson?_eq_some_iff.mp hpayload) rfl

/-- The status 404 is only given by `Service.routeAll`, when no service is left; an endpoint answers
with 200, or with 400 for a body that is no payload. -/
theorem Answers.ne_notFound (h : endpoint.Answers body state reply next) : reply ≠ .empty 404 := by
  intro heq
  have hstatus : reply.status = 404 := congrArg Reply.status heq
  cases h with
  | badRequest _ => cases hstatus
  | answered _ _ => cases hstatus

end Endpoint

namespace Service

variable {ι : Type} {State : ι → Type} {service : Service State} {head : Head}

theorem route_of_not_postsTo (body : Json) (h : ¬head.PostsTo service.endpoint.path) :
    service.route head body = (none, body, service) :=
  route_of_not_accepts body (Endpoint.accepts_eq_false_iff.mpr h)

theorem route_of_postsTo (body : Json) (h : head.PostsTo service.endpoint.path) :
    service.route head body = (some (service.endpoint.reply body service.state).1, .null,
      service.withState (service.endpoint.reply body service.state).2) := by
  rw [route, if_pos (Endpoint.accepts_iff_postsTo.mpr h)]
  rfl

/-- The step of `routeAll` past a service: the service stays in front of what the others become, and
the body is still there for them. -/
theorem routeAll_cons_of_not_postsTo (rest : List (Service State)) (body : Json)
    (h : ¬head.PostsTo service.endpoint.path) :
    routeAll (service :: rest) head body = ((routeAll rest head body).1,
      (routeAll rest head body).2.1, service :: (routeAll rest head body).2.2) :=
  routeAll_cons_of_not_accepts rest body (Endpoint.accepts_eq_false_iff.mpr h)

/-- The last step of `routeAll`: the services behind are returned as they are, and what is left of
the body is null. -/
theorem routeAll_cons_of_postsTo (rest : List (Service State)) (body : Json)
    (h : head.PostsTo service.endpoint.path) :
    routeAll (service :: rest) head body = ((service.endpoint.reply body service.state).1, .null,
      service.withState (service.endpoint.reply body service.state).2 :: rest) := by
  rw [routeAll, route_of_postsTo body h]

/-- Services that decline a request can be left out in front. The induction is on them; each passes
the body on, so that the rest sees the same request. -/
theorem routeAll_append {before : List (Service State)} (rest : List (Service State)) (body : Json)
    (h : ∀ other ∈ before, ¬head.PostsTo other.endpoint.path) :
    routeAll (before ++ rest) head body = ((routeAll rest head body).1,
      (routeAll rest head body).2.1, before ++ (routeAll rest head body).2.2) := by
  induction before with
  | nil => rfl
  | cons first others ih =>
    obtain ⟨hfirst, hothers⟩ := List.forall_mem_cons.mp h
    rw [List.cons_append, routeAll_cons_of_not_postsTo _ body hfirst, ih hothers, List.cons_append]

theorem routeAll_of_declined {services : List (Service State)} (body : Json)
    (h : ∀ service ∈ services, ¬head.PostsTo service.endpoint.path) :
    routeAll services head body = (.empty 404, body, services) := by
  have hall := routeAll_append [] body h
  rw [List.append_nil] at hall
  rw [hall, routeAll_nil, List.append_nil]

theorem exists_first {services : List (Service State)}
    (h : ¬∀ service ∈ services, ¬head.PostsTo service.endpoint.path) :
    ∃ before service after, services = before ++ service :: after ∧
      (∀ other ∈ before, ¬head.PostsTo other.endpoint.path) ∧
        head.PostsTo service.endpoint.path := by
  have hsome : (services.find? fun service => head.PostsTo service.endpoint.path).isSome := by
    simpa using h
  obtain ⟨service, hfind⟩ := Option.isSome_iff_exists.mp hsome
  obtain ⟨hposts, before, after, rfl, hbefore⟩ := List.find?_eq_some_iff_append.mp hfind
  exact ⟨before, service, after, rfl, by simpa using hbefore, by simpa using hposts⟩

/-- What services of any kind, at any paths and in any states, make of a request. The first that the
request is directed at is given the whole body, takes it, and answers exactly as it would if it were
alone; the others are left as they were. If the request is directed at none, nothing is found, and
the body is left too; and this is the only way to that answer, since no service gives it. A service
that the request is not directed at never takes the body, wherever it stands. -/
theorem routeAll_first (services : List (Service State)) (head : Head) (body : Json) :
    (∀ before service after, services = before ++ service :: after →
        (∀ other ∈ before, ¬head.PostsTo other.endpoint.path) →
        head.PostsTo service.endpoint.path →
          ∃ reply next, service.endpoint.Answers body service.state reply next ∧
            service.route head body = (some reply, .null, service.withState next) ∧
            routeAll services head body =
              (reply, .null, before ++ service.withState next :: after)) ∧
      ((∀ service ∈ services, ¬head.PostsTo service.endpoint.path) →
        routeAll services head body = (.empty 404, body, services)) ∧
      ((routeAll services head body).1 = .empty 404 ↔
        ∀ service ∈ services, ¬head.PostsTo service.endpoint.path) ∧
      ∀ service : Service State, ¬head.PostsTo service.endpoint.path →
        service.route head body = (none, body, service) := by
  have hfirst : ∀ before service after, services = before ++ service :: after →
      (∀ other ∈ before, ¬head.PostsTo other.endpoint.path) → head.PostsTo service.endpoint.path →
        routeAll services head body = ((service.endpoint.reply body service.state).1, .null,
          before ++ service.withState (service.endpoint.reply body service.state).2 :: after) := by
    rintro before service after rfl hbefore hposts
    rw [routeAll_append _ body hbefore, routeAll_cons_of_postsTo after body hposts]
  refine ⟨fun before service after heq hbefore hposts => ?_, routeAll_of_declined body,
    ⟨fun hreply => ?_, fun hnone => ?_⟩, fun _ => route_of_not_postsTo body⟩
  · exact ⟨_, _, service.endpoint.answers_reply body service.state, route_of_postsTo body hposts,
      hfirst before service after heq hbefore hposts⟩
  · by_contra hsome
    obtain ⟨before, service, after, heq, hbefore, hposts⟩ := exists_first hsome
    rw [hfirst before service after heq hbefore hposts] at hreply
    exact (service.endpoint.answers_reply body service.state).ne_notFound hreply
  · rw [routeAll_of_declined body hnone]

/-! ## Requests one after the other -/

/-- The place of the service that a request comes to: the first that it is directed at. It is found
from the head of the request and the paths alone. -/
def place? (services : List (Service State)) (head : Head) : Option Nat :=
  services.findIdx? fun service => head.PostsTo service.endpoint.path

theorem place?_cons_of_postsTo (rest : List (Service State))
    (h : head.PostsTo service.endpoint.path) : place? (service :: rest) head = some 0 := by
  rw [place?, List.findIdx?_cons, decide_eq_true h]
  rfl

theorem place?_cons_of_not_postsTo (rest : List (Service State))
    (h : ¬head.PostsTo service.endpoint.path) :
    place? (service :: rest) head = (place? rest head).map (· + 1) := by
  rw [place?, List.findIdx?_cons, decide_eq_false h]
  rfl

/-- `Service.withState` keeps the endpoint, so that `place?` is the same after any request; it can
therefore be known of a whole list of requests before the first of them is served. -/
theorem place?_routeAll (services : List (Service State)) (head other : Head) (body : Json) :
    place? (routeAll services head body).2.2 other = place? services other := by
  induction services with
  | nil => rfl
  | cons first rest ih =>
    by_cases hfirst : head.PostsTo first.endpoint.path
    · rw [routeAll_cons_of_postsTo rest body hfirst]
      rfl
    · rw [routeAll_cons_of_not_postsTo rest body hfirst]
      by_cases hother : other.PostsTo first.endpoint.path
      · rw [place?_cons_of_postsTo _ hother, place?_cons_of_postsTo _ hother]
      · rw [place?_cons_of_not_postsTo _ hother, place?_cons_of_not_postsTo _ hother, ih]

theorem getElem?_routeAll_of_ne {services : List (Service State)} {place : Nat} (body : Json)
    (h : place? services head ≠ some place) :
    (routeAll services head body).2.2[place]? = services[place]? := by
  induction services generalizing place with
  | nil => rfl
  | cons first rest ih =>
    by_cases hfirst : head.PostsTo first.endpoint.path
    · rw [place?_cons_of_postsTo rest hfirst] at h
      rw [routeAll_cons_of_postsTo rest body hfirst]
      cases place with
      | zero => exact absurd rfl h
      | succ place => rfl
    · rw [place?_cons_of_not_postsTo rest hfirst] at h
      rw [routeAll_cons_of_not_postsTo rest body hfirst]
      cases place with
      | zero => rfl
      | succ place => exact ih fun hplace => h (by rw [hplace]; rfl)

/-- In the place of `place?`, the request is answered by the service there from its own state. -/
theorem routeAll_of_place? {services : List (Service State)} {place : Nat} (body : Json)
    (h : place? services head = some place) (hservice : services[place]? = some service) :
    head.PostsTo service.endpoint.path ∧
      (routeAll services head body).1 = (service.endpoint.reply body service.state).1 ∧
      (routeAll services head body).2.2[place]? =
        some (service.withState (service.endpoint.reply body service.state).2) := by
  induction services generalizing place with
  | nil => cases h
  | cons first rest ih =>
    by_cases hfirst : head.PostsTo first.endpoint.path
    · rw [place?_cons_of_postsTo rest hfirst] at h
      obtain rfl := Option.some.inj h
      obtain rfl := Option.some.inj hservice
      rw [routeAll_cons_of_postsTo rest body hfirst]
      exact ⟨hfirst, rfl, rfl⟩
    · rw [place?_cons_of_not_postsTo rest hfirst] at h
      obtain ⟨place, hplace, rfl⟩ := Option.map_eq_some_iff.mp h
      rw [routeAll_cons_of_not_postsTo rest body hfirst]
      exact ih hplace hservice

/-- The answer and the state of a service in a list are those it has by itself; what it is compared
with is `serve` for the list of this one service. -/
theorem serve_of_place? {services : List (Service State)} {place : Nat} {request : WireRequest}
    (h : place? services request.head = some place) (hservice : services[place]? = some service) :
    ∃ next : State service.index,
      serve [service] request = ((serve services request).1, [service.withState next]) ∧
        (serve services request).2[place]? = some (service.withState next) := by
  obtain ⟨hposts, hreply, hnext⟩ := routeAll_of_place? request.json h hservice
  have hsent : (serve services request).1 =
      .ofReply? (some (service.endpoint.reply request.json service.state).1) :=
    congrArg (fun reply => WireReply.ofReply? (some reply)) hreply
  refine ⟨(service.endpoint.reply request.json service.state).2, ?_, hnext⟩
  rw [hsent]
  exact serve_of_accepts (Endpoint.accepts_iff_postsTo.mpr hposts) rfl

theorem serveAll_cons (services : List (Service State)) (request : WireRequest)
    (rest : List WireRequest) : serveAll services (request :: rest) =
      ((serve services request).1 :: (serveAll (serve services request).2 rest).1,
        (serveAll (serve services request).2 rest).2) := rfl

/-- However many requests there are: a service, in whatever place, answers those that come to it as
it would if it were alone and there were no others, and is left as it would be then. The induction
is on the requests, with the services generalized; `place?_routeAll` keeps the requests that come to
the place the same ones throughout. -/
theorem serveAll_apart {services : List (Service State)} {place : Nat}
    (h : services[place]? = some service) (requests : List WireRequest) :
    ∃ (replies : List WireReply) (next : State service.index),
      serveAll [service]
          (requests.filter fun request => place? services request.head = some place) =
        (replies, [service.withState next]) ∧
      ((requests.zip (serveAll services requests).1).filter fun served =>
        place? services served.1.head = some place).map (·.2) = replies ∧
      (serveAll services requests).2[place]? = some (service.withState next) := by
  induction requests generalizing services service with
  | nil => exact ⟨[], service.state, rfl, rfl, h⟩
  | cons request rest ih =>
    have hplaces : ∀ head, place? (serve services request).2 head = place? services head :=
      fun head => place?_routeAll services request.head head request.json
    by_cases hcomes : place? services request.head = some place
    · obtain ⟨state, halone, hnext⟩ := serve_of_place? hcomes h
      obtain ⟨replies, next, hrest, hreplies, hafter⟩ := ih hnext
      simp only [hplaces] at hrest hreplies
      refine ⟨(serve services request).1 :: replies, next, ?_, ?_, hafter⟩
      · rw [List.filter_cons_of_pos (by simp [hcomes]), serveAll_cons, halone, hrest]
        rfl
      · rw [serveAll_cons, List.zip_cons_cons, List.filter_cons_of_pos (by simp [hcomes]),
          List.map_cons, hreplies]
    · have hsame : (serve services request).2[place]? = some service :=
        (getElem?_routeAll_of_ne request.json hcomes).trans h
      obtain ⟨replies, next, hrest, hreplies, hafter⟩ := ih hsame
      simp only [hplaces] at hrest hreplies
      refine ⟨replies, next, ?_, ?_, hafter⟩
      · rwa [List.filter_cons_of_neg (by simp [hcomes])]
      · rwa [serveAll_cons, List.zip_cons_cons, List.filter_cons_of_neg (by simp [hcomes])]

end Service

/-! ## Counters side by side -/

namespace Counters

/-- One kind of service counts, the other keeps a word. -/
def State : Bool → Type
  | true => Nat
  | false => String

def schema : Schema :=
  { Schema.initial with
    types := Schema.initial.types ++
      [⟨"Query", none, .object [⟨"next", .named "Int" true, none, []⟩]⟩] }

/-- Each number is given out once, after a while. -/
def engine : Engine Nat where
  schema := schema
  resolvers := ResolverTable.empty.register "Query" "next" fun _ _ count =>
    (.deferred (.pause (.write (count + 1) (.done (.ok (.ofNat count))))), count)
  complain := fun _ => ⟨"not a document", .start, none⟩
  depthLimit := 4

/-- A service at another path, with a state of another type. -/
def door : Service State := ⟨false, ⟨"/door", ⟨⟨schema, .empty⟩, engine.complain, 4⟩⟩, "ajar"⟩

def till : Service State := ⟨true, ⟨"/till", engine⟩, (7 : Nat)⟩

/-- Another one at the same path, which has not begun. -/
def spare : Service State := ⟨true, ⟨"/till", engine⟩, (0 : Nat)⟩

def body : Json := .object [("query", .string "\x7b next \x7d")]

/-- Of the two services at the path the first counts on; the door and the other one are left
alone. -/
theorem till_counts : ∃ reply next, till.endpoint.Answers body (7 : Nat) reply next ∧
    Service.routeAll [door, till, spare] ⟨"POST", "/till"⟩ body =
      (reply, .null, [door, till.withState next, spare]) ∧
    Service.routeAll [door, till, spare] ⟨"GET", "/till"⟩ body =
      (.empty 404, body, [door, till, spare]) := by
  obtain ⟨hfirst, -⟩ := Service.routeAll_first [door, till, spare] ⟨"POST", "/till"⟩ body
  obtain ⟨-, hnone, -⟩ := Service.routeAll_first [door, till, spare] ⟨"GET", "/till"⟩ body
  obtain ⟨reply, next, hanswers, -, hroute⟩ :=
    hfirst [door] till [spare] rfl (by decide) ⟨rfl, rfl⟩
  exact ⟨reply, next, hanswers, hroute, hnone (by decide)⟩

example : (Service.routeAll [door, till, spare] ⟨"POST", "/till"⟩ body).1 =
    ⟨200, ⟨[("content-type", "application/json")]⟩, some "\x7b\"data\":\x7b\"next\":7\x7d\x7d"⟩ := by
  decide +kernel

end Counters

end FeedGraph
