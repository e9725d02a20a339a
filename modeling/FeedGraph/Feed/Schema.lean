import FeedGraph.Schema.Basic

/-!
# Schema: what can be asked of the feed

Authors and messages, films as the catalog describes them, and two mutations.
-/

namespace FeedGraph.Feed

def required (name : String) : TypeRef := .named name false

def optional (name : String) : TypeRef := .named name true

def plain (name : String) (type : TypeRef) : FieldDef := ⟨name, type, none, []⟩

def argument (name : String) (type : TypeRef) : InputDef := ⟨name, type, none⟩

def withArguments (name : String) (arguments : List InputDef) (type : TypeRef) : FieldDef :=
  ⟨name, type, none, arguments⟩

def authorType : TypeDef where
  name := "Author"
  description? := some "Someone who can post messages"
  kind := .object [
    plain "id" (required "ID"),
    plain "firstName" (required "String"),
    plain "lastName" (required "String"),
    ⟨"fullName", required "String", some "firstName + \" \" + lastName", []⟩]

def messageType : TypeDef where
  name := "Message"
  description? := some "A short message posted by an author"
  kind := .object [
    plain "id" (required "ID"),
    plain "text" (required "String"),
    ⟨"author", optional "Author", some "The author, if one with the message's authorId exists", []⟩]

def filmType : TypeDef where
  name := "FilmRecord"
  description? := some "Film details as provided by the remote catalog"
  kind := .object [
    plain "id" (required "Int"),
    plain "url" (required "String"),
    plain "imdb_code" (required "String"),
    plain "title" (required "String"),
    plain "title_english" (required "String"),
    plain "title_long" (required "String"),
    plain "slug" (required "String"),
    plain "year" (required "Int"),
    plain "rating" (required "Float"),
    plain "runtime" (required "Float"),
    plain "genres" (.list (optional "String") false),
    plain "download_count" (optional "Int"),
    plain "like_count" (optional "Int"),
    plain "summary" (optional "String"),
    plain "synopsis" (optional "String"),
    plain "description_intro" (optional "String"),
    plain "description_full" (required "String"),
    plain "yt_trailer_code" (required "String"),
    plain "language" (required "String"),
    plain "mpa_rating" (required "String"),
    plain "background_image" (required "String"),
    plain "background_image_original" (required "String"),
    plain "small_cover_image" (required "String"),
    plain "medium_cover_image" (required "String"),
    plain "large_cover_image" (required "String"),
    plain "date_uploaded" (required "String"),
    plain "date_uploaded_unix" (required "Int")]

def queryType : TypeDef where
  name := "Query"
  description? := none
  kind := .object [
    plain "allMessages" (.list (required "Message") false),
    withArguments "message" [argument "id" (required "ID")] (optional "Message"),
    plain "allAuthors" (.list (required "Author") false),
    withArguments "author" [argument "id" (required "ID")] (optional "Author"),
    ⟨"allFilms", .list (required "FilmRecord") false,
      some "Films from the catalog (10 unless a positive limit is given)",
      [argument "limit" (optional "Int")]⟩,
    withArguments "film" [argument "id" (required "ID")] (required "FilmRecord")]

def mutationType : TypeDef where
  name := "Mutation"
  description? := none
  kind := .object [
    withArguments "postMessage"
      [argument "text" (required "String"), argument "authorId" (required "ID")]
      (required "Message"),
    withArguments "deleteMessage" [argument "id" (required "ID")] (required "Boolean")]

/-- The types of the feed. The scalars that every schema has come first, as they do in a schema that
is read. -/
def schema : Schema where
  types := (Schema.builtinScalars.map fun name => ⟨name, none, .scalar⟩) ++
    [authorType, messageType, filmType, queryType, mutationType]
  queryRoot := "Query"
  mutationRoot := "Mutation"

end FeedGraph.Feed
