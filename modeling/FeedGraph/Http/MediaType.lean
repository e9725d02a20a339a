/-!
# MediaType: what a body is

A media type is written as a type and a subtype, and parameters may follow. What stands behind the
last plus sign of a subtype is its suffix: `application/vnd.api+json` is a kind of JSON. Parameters
have no meaning here, but have to be well formed.
-/

namespace FeedGraph

/-- A media type, without its parameters. -/
structure MediaType where
  /-- the subtype before its suffix, in lower case -/
  subtype : String
  /-- the suffix, in lower case, if there is one -/
  suffix? : Option String
  deriving DecidableEq

namespace MediaType

/-- Whether a character may be in a name. -/
def isToken (c : Char) : Bool := c.isAlphanum || "!#$%&'*+-.^_`|~".toList.contains c

def isQuotable (c : Char) : Bool := 0x20 ≤ c.toNat && c.toNat < 0x7f

mutual

/-- Whether parameters are well formed from where one may begin, after any number of spaces. This
and the functions after it are the states of an automaton that goes through the characters once. -/
def parametersOk : List Char → Bool
  | [] => true
  | ' ' :: rest => parametersOk rest
  | c :: rest => isToken c && nameOk rest

def nameOk : List Char → Bool
  | [] => false
  | '=' :: rest => valueStartOk rest
  | c :: rest => isToken c && nameOk rest

/-- Whether parameters are well formed from where a value begins. A value that is not there is taken
for one only at the end. -/
def valueStartOk : List Char → Bool
  | [] => true
  | '"' :: rest => quotedStartOk rest
  | c :: rest => isToken c && valueOk rest

def valueOk : List Char → Bool
  | [] => true
  | ';' :: rest => parametersOk rest
  | c :: rest => isToken c && valueOk rest

/-- Whether parameters are well formed from where a quoted value begins; a quote there is part of
it. -/
def quotedStartOk : List Char → Bool
  | [] => false
  | c :: rest => isQuotable c && quotedOk rest

def quotedOk : List Char → Bool
  | [] => false
  | '"' :: rest => gapOk rest
  | c :: rest => isQuotable c && quotedOk rest

def gapOk : List Char → Bool
  | [] => true
  | ';' :: rest => parametersOk rest
  | ' ' :: rest => gapOk rest
  | _ => false

end

/-- The media type with a subtype; a plus sign in front does not begin a suffix. -/
def ofSubtype (subtype : List Char) : MediaType :=
  let lower := subtype.map Char.toLower
  let (suffix, before) := lower.reverse.span (· ≠ '+')
  match before with
  | _ :: c :: rest =>
    ⟨String.ofList (c :: rest).reverse, some (String.ofList suffix.reverse)⟩
  | _ => ⟨String.ofList lower, none⟩

/-- The media type that a text stands for. -/
def ofText? (text : String) : Option MediaType :=
  let (type, rest) := text.toList.span isToken
  match type, rest with
  | _ :: _, '/' :: rest =>
    let (subtype, rest) := rest.span isToken
    match subtype, rest with
    | subtype, [] => some (ofSubtype subtype)
    | c :: others, separator :: rest =>
      if (separator = ';' ∨ separator = ' ') ∧ parametersOk rest then some (ofSubtype (c :: others))
      else none
    | [], _ => none
  | _, _ => none

/-- Whether a body of this media type is JSON, by its subtype or by its suffix. -/
def isJson (type : MediaType) : Bool := type.subtype == "json" || type.suffix? == some "json"

end MediaType

end FeedGraph
