import FeedGraph.Url.Form

/-!
# Url: addresses

An address consists of a scheme, an authority, a path, a query and a fragment; all but the scheme
and the path may be missing. Most paths are lists of segments; the path of an address such as
`mailto:a@b.c` is a text without parts, to which nothing can be added.
-/

namespace FeedGraph

/-- The path of an address. -/
inductive Url.Path where
  /-- a text without parts -/
  | rootless (text : String)
  /-- segments, each of which follows a slash -/
  | segments (names : List String)
  deriving DecidableEq

/-- An address. Its parts are kept as they are written. -/
structure Url where
  /-- the scheme, in lower case -/
  scheme : String
  /-- the host, with what stands before and behind it, if there is one -/
  authority? : Option String
  /-- the path -/
  path : Url.Path
  /-- what follows the question mark, if there is one -/
  query? : Option String
  /-- what follows the number sign, if there is one -/
  fragment? : Option String
  deriving DecidableEq

namespace Url

def Path.text : Path → String
  | .rootless text => text
  | .segments names => String.join (names.map ("/" ++ ·))

def optionalText (mark : String) : Option String → String
  | none => ""
  | some text => mark ++ text

/-- An address as it is written. Without an authority, a path that begins with an empty segment has
a dot in front, lest that segment be taken for the start of one. -/
def text (url : Url) : String :=
  let guard := match url.authority?, url.path with
    | none, .segments ("" :: _ :: _) => "/."
    | _, _ => ""
  url.scheme ++ ":" ++ optionalText "//" url.authority? ++ guard ++ url.path.text ++
    optionalText "?" url.query? ++ optionalText "#" url.fragment?

/-- What is asked of the host: the path and the query. -/
def target (url : Url) : String := url.path.text ++ optionalText "?" url.query?

/-- Drops the last segment if it is empty and not the only one. -/
def dropEmptyLast (names : List String) : List String :=
  if names.length ≥ 2 ∧ names.getLast? = some "" then names.dropLast else names

/-- Adds a segment; it takes the place of an only segment that is empty. -/
def pushSegment (names : List String) (name : String) : List String :=
  if names = [""] then [name] else names ++ [name]

/-- The address of a resource below another one, asked for with a name and a value. Whether the path
of the other ends with a slash does not matter. There is none if nothing can be added to the
path. -/
def resource? (base : Url) (resource name value : String) : Option Url :=
  match base.path with
  | .rootless _ => none
  | .segments names =>
    some { base with
      path := .segments (pushSegment (dropEmptyLast names) resource)
      query? := some (Form.append base.query? name value) }

end Url

end FeedGraph
