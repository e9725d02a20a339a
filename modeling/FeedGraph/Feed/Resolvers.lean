import FeedGraph.Catalog.Basic
import FeedGraph.Execution.Resolver
import FeedGraph.Feed.State

/-!
# Resolvers: where the feed's values come from

Fields that are not here are members of the object they belong to.
-/

namespace FeedGraph.Feed

/-- A resolver that has its outcome at once and changes nothing. -/
def reading (outcome : Json → Members Value → Store → Outcome) : Resolver FeedState :=
  fun parent arguments state => (.ready (outcome parent arguments state.store), state)

/-- A text that has to be given as an argument. The schema of the feed requires it, so that an
accepted operation always has it. -/
def textArgument (arguments : Members Value) (name : String) : Except Fault String :=
  match (Members.get? arguments name).bind Value.string? with
  | some text => .ok text
  | none => .error ⟨s!"Missing argument '{name}'"⟩

def textMember (object : Json) (name : String) : Option String :=
  (object.member? name).bind Json.string?

def optionalJson {α : Type} (toJson : α → Json) : Option α → Json
  | some record => toJson record
  | none => .null

/-! ## Reading -/

/-- The two names of an author. -/
def authorFullName : Resolver FeedState := reading fun parent _ _ =>
  match textMember parent "firstName", textMember parent "lastName" with
  | some firstName, some lastName => .ok (.string (firstName ++ " " ++ lastName))
  | _, _ => .error ⟨"Author is missing a first or last name"⟩

/-- The author of a message, if known. -/
def messageAuthor : Resolver FeedState := reading fun parent _ store =>
  .ok (optionalJson Author.toJson ((textMember parent "authorId").bind store.author?))

def allMessages : Resolver FeedState := reading fun _ _ store =>
  .ok (.array (store.messages.map Message.toJson))

/-- The message with an id, or null. -/
def message : Resolver FeedState := reading fun _ arguments store =>
  (textArgument arguments "id").map fun id => optionalJson Message.toJson (store.message? id)

def allAuthors : Resolver FeedState := reading fun _ _ store =>
  .ok (.array (store.authors.map Author.toJson))

def author : Resolver FeedState := reading fun _ arguments store =>
  (textArgument arguments "id").map fun id => optionalJson Author.toJson (store.author? id)

/-! ## Films -/

/-- What comes of asking the catalog, once it is known. A fault of the catalog is one of the field,
with the same words. -/
def filmOutcome {α : Type} (toJson : α → Json) : Except CatalogFault α → Outcome
  | .ok films => .ok (toJson films)
  | .error fault => .error ⟨fault.message⟩

/-- Asks the catalog and waits for what comes of it. The request is sent before the first pause, and
what comes of it depends on what was sent by then. A request without an address is not sent. -/
def asking (catalog : Catalog) (request : FilmRequest)
    (outcome : Except CatalogFault Exchange → Outcome) : Fiber FeedState Outcome :=
  match catalog.url request with
  | .error fault => .done (outcome (.error fault))
  | .ok url => .read fun state => .write (state.send url) <|
      .pause <| .done (outcome (.ok (catalog.exchange state.sent url catalog.timeout?)))

/-- How many films are asked for: as many as are wanted if that is a positive number, else ten.
Numbers that are too large for 32 bits become the largest that is not. -/
def filmLimit (limit? : Option Value) : Nat :=
  match limit?.bind Value.int64? with
  | some limit => if 0 < limit.toInt then min limit.toInt.toNat 0xffffffff else 10
  | none => 10

/-- Films of the catalog. -/
def allFilms (catalog : Catalog) : Resolver FeedState := fun _ arguments state =>
  let limit := filmLimit (Members.get? arguments "limit")
  (.deferred (asking catalog (.list limit) fun exchange =>
    filmOutcome Json.array (exchange.bind (Exchange.films catalog.complaint))), state)

def film (catalog : Catalog) : Resolver FeedState := fun _ arguments state =>
  match textArgument arguments "id" with
  | .error fault => (.ready (.error fault), state)
  | .ok id =>
    (.deferred (asking catalog (.details id) fun exchange =>
      filmOutcome Json.object (exchange.bind (Exchange.film catalog.complaint))), state)

/-! ## Writing -/

/-- Posts a message. The author need not be known. -/
def postMessage : Resolver FeedState := fun _ arguments state =>
  match textArgument arguments "text" with
  | .error fault => (.ready (.error fault), state)
  | .ok text =>
    match textArgument arguments "authorId" with
    | .error fault => (.ready (.error fault), state)
    | .ok authorId =>
      let (message, state) := state.post text authorId
      (.ready (.ok message.toJson), state)

/-- Deletes the messages with an id; the outcome says whether there were any. -/
def deleteMessage : Resolver FeedState := fun _ arguments state =>
  match textArgument arguments "id" with
  | .error fault => (.ready (.error fault), state)
  | .ok id =>
    let (deleted, state) := state.delete id
    (.ready (.ok (.boolean deleted)), state)

/-- The resolvers of the feed. -/
def resolvers (catalog : Catalog) : ResolverTable FeedState := ⟨[
  ⟨"Author", "fullName", authorFullName⟩,
  ⟨"Message", "author", messageAuthor⟩,
  ⟨"Query", "allMessages", allMessages⟩,
  ⟨"Query", "message", message⟩,
  ⟨"Query", "allAuthors", allAuthors⟩,
  ⟨"Query", "author", author⟩,
  ⟨"Query", "allFilms", allFilms catalog⟩,
  ⟨"Query", "film", film catalog⟩,
  ⟨"Mutation", "postMessage", postMessage⟩,
  ⟨"Mutation", "deleteMessage", deleteMessage⟩]⟩

end FeedGraph.Feed
