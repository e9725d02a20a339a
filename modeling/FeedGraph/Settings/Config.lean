import FeedGraph.Settings.Environment

/-!
# Config: the settings of the service

Their names in the environment, and what they are when they are not set.
-/

namespace FeedGraph.Config

def host (environment : Environment) : String :=
  environment.getD "FEED_SERVER_HOST" "0.0.0.0"

/-- The number that a setting gives, or another if it is not set. -/
def naturalD (environment : Environment) (name : String) (format : IntegerFormat) (other : Nat) :
    Except SettingError Nat :=
  (environment.integer name format).map fun n? => (n?.map Int.toNat).getD other

/-- The port that is listened on. -/
def port (environment : Environment) : Except SettingError Nat :=
  naturalD environment "FEED_SERVER_PORT" .natural16 4000

def path (environment : Environment) : String :=
  environment.getD "FEED_GRAPHQL_HTTP_PATH" "/graphql"

/-- Fields may be nested this deep. -/
def depthLimit (environment : Environment) : Except SettingError Nat :=
  naturalD environment "FEED_QUERY_DEPTH_LIMIT" .natural64 16

def catalogUrl (environment : Environment) : String :=
  environment.getD "FEED_CATALOG_URL" "https://yts.mx/api/v2"

/-- How long the catalog may take, in milliseconds; as long as it likes if this is not set. -/
def catalogTimeout (environment : Environment) : Except SettingError (Option Nat) :=
  (environment.integer "FEED_CATALOG_TIMEOUT_MS" .natural64).map fun n? => n?.map Int.toNat

end FeedGraph.Config
