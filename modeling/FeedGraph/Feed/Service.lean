import FeedGraph.Feed.Resolvers
import FeedGraph.Feed.Schema
import FeedGraph.Http.Router
import FeedGraph.Settings.Config
import FeedGraph.Url.Reader

/-!
# Service: the feed, set up from an environment

The depth limit is read first, then the address of the catalog, then its timeout; the first that
cannot be read is reported. Two things are not told by settings but by what the feed is run with:
the way to the catalog (`Transport`), and the words for documents that break the grammar
(`Complaint`).
-/

namespace FeedGraph

/-- Why the feed cannot be set up. -/
inductive SetupError where
  /-- a setting cannot be read -/
  | setting (error : SettingError)
  /-- the address of the catalog is none -/
  | invalidCatalogUrl (url : String) (error : UrlError)
  deriving DecidableEq

/-- The wording of an error. -/
def SetupError.message : SetupError → String
  | .setting error => error.message
  | .invalidCatalogUrl url error => s!"Invalid catalog URL '{url}': {error.message}"

namespace Feed

/-- What answers requests to the feed: `Feed.schema` with the functions of `Feed.resolvers`. -/
def engine (complain : String → Complaint) (catalog : Catalog) (depthLimit : Nat) :
    Engine FeedState :=
  ⟨⟨schema, resolvers catalog⟩, complain, depthLimit⟩

/-- The catalog that settings name. Its address is read before its timeout, so that of two mistakes
the first is told of. -/
def catalog (environment : Environment) (transport : Transport) : Except SetupError Catalog := do
  let text := Config.catalogUrl environment
  let base ← (Url.ofText text).mapError (.invalidCatalogUrl text)
  let timeout? ← (Config.catalogTimeout environment).mapError .setting
  return ⟨transport, base, timeout?⟩

/-- The endpoint that settings ask for. The depth limit is read before the settings of the catalog;
the path needs no reading, and cannot be wrong. -/
def endpoint (complain : String → Complaint) (environment : Environment) (transport : Transport) :
    Except SetupError (Endpoint FeedState) := do
  let depthLimit ← (Config.depthLimit environment).mapError .setting
  let catalog ← catalog environment transport
  return ⟨Config.path environment, engine complain catalog depthLimit⟩

/-- The service that settings ask for, in the state of a feed that starts with the store
`Store.seed`. There is one service, so one type of states. -/
def service (complain : String → Complaint) (environment : Environment) (transport : Transport) :
    Except SetupError (Service fun _ : Unit => FeedState) :=
  (endpoint complain environment transport).map fun endpoint =>
    ⟨(), endpoint, FeedState.ofStore .seed⟩

end Feed

end FeedGraph
