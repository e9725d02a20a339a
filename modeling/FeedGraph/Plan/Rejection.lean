import FeedGraph.Document.Reader
import FeedGraph.Text.Quoted

/-!
# Rejection: why a request is not executed

One constructor for each cause, with what the wording needs and the place it points at.
-/

namespace FeedGraph

/-- Why two selected fields cannot share an output name. -/
inductive Conflict where
  /-- they are different fields -/
  | differentFields (first second : String)
  /-- they are one field with different arguments -/
  | differentArguments
  deriving DecidableEq

def Conflict.text : Conflict → String
  | .differentFields first second => s!"'{first}' and '{second}' are different fields"
  | .differentArguments => "they have differing arguments"

/-- The most fields that an operation may select, every copy that a fragment brings in included. -/
def fieldLimit : Nat := 10000

/-- Why a request is not executed. -/
inductive Rejection where
  /-- its text is no document -/
  | document (error : DocumentError)
  /-- it has no text -/
  | missingQuery
  /-- a variable has no value -/
  | variableNotFound (name : String) (place : Position)
  /-- a fragment is not defined -/
  | fragmentNotFound (name : String) (place : Position)
  /-- a fragment is used inside itself -/
  | fragmentCycle (name : String) (place : Position)
  /-- a fragment on one type is used on another -/
  | fragmentMismatch (name usedOn definedOn : String) (place : Position)
  /-- selections in place are not supported -/
  | inlineFragment (place : Position)
  /-- the schema has no root for the kind of operation -/
  | missingRoot (kind : OperationKind) (place : Position)
  /-- subscriptions are not supported -/
  | subscription (place : Position)
  /-- a type has no field of this name -/
  | unknownField (name type : String) (place : Position)
  /-- something is selected from a value without parts -/
  | selectionOnLeaf (name : String) (place : Position)
  /-- nothing is selected from an object -/
  | missingSelection (name type : String) (place : Position)
  /-- nothing can be selected from values of a type -/
  | unselectableType (type : String) (place : Position)
  /-- two fields cannot share an output name -/
  | conflict (output : String) (reason : Conflict) (place : Position)
  /-- a field is inside too many others -/
  | tooDeep (place : Position)
  /-- there are too many fields -/
  | tooManyFields (place : Position)
  /-- a required argument is left out or null -/
  | missingArgument (name : String) (place : Position)
  /-- arguments are given that are not declared -/
  | strayArguments (names : List String) (owner : String) (place : Position)
  /-- an argument is of the wrong type -/
  | mismatch (argument expected : String) (actual : Literal.Kind) (place : Position)
  /-- the defaults of an input object lead back to themselves -/
  | endlessDefault (argument : String) (place : Position)
  /-- the document has no operation -/
  | noOperation
  /-- it has several, and none is named -/
  | operationNameRequired
  /-- it has none of the name that is given -/
  | unknownOperation (name : String)
  deriving DecidableEq

namespace Rejection

/-- The wording of a rejection. -/
def message : Rejection → String
  | .document error => error.message
  | .missingQuery => "Must provide a query string"
  | .variableNotFound name _ => s!"Variable '{name}' not found"
  | .fragmentNotFound name _ => s!"Fragment definition '{name}' not found"
  | .fragmentCycle name _ => s!"Fragment '{name}' spreads itself"
  | .fragmentMismatch name usedOn definedOn _ =>
    s!"Fragment '{name}' cannot be spread on type '{usedOn}' (it is defined on '{definedOn}')"
  | .inlineFragment _ => "Inline fragments are not supported"
  | .missingRoot kind _ => s!"No such operation '{kind.text}'"
  | .subscription _ => "Subscriptions are not supported"
  | .unknownField name type _ => s!"Field '{name}' is not valid for type '{type}'"
  | .selectionOnLeaf name _ =>
    s!"Field '{name}' is of a scalar type, which should not specify fields"
  | .missingSelection name type _ =>
    s!"Field '{name}' of type '{type}' must have a selection of subfields"
  | .unselectableType type _ => s!"Field type '{type}' is not valid"
  | .conflict output reason _ => s!"Fields '{output}' conflict because {reason.text}"
  | .tooDeep _ => "Selection set too deep"
  | .tooManyFields _ => s!"Operation selects more than {fieldLimit} fields"
  | .missingArgument name _ => s!"Required argument '{name}' not found"
  | .strayArguments names owner _ =>
    s!"Argument(s) '{Text.quotedList names}' invalid for '{owner}'"
  | .mismatch argument expected actual _ =>
    s!"Argument '{argument}' is not of a valid type. Expected '{expected}', got '{actual.text}'"
  | .endlessDefault argument _ => s!"Argument '{argument}' has a default that never ends"
  | .noOperation => "No operation found"
  | .operationNameRequired =>
    "Must provide operation name if query contains multiple operations"
  | .unknownOperation name => s!"operationName '{name}' doesn't match any operation"

/-- The places a rejection points at. -/
def positions : Rejection → List Position
  | .document error => error.positions
  | .variableNotFound _ place | .fragmentNotFound _ place | .fragmentCycle _ place
  | .fragmentMismatch _ _ _ place | .inlineFragment place | .missingRoot _ place
  | .subscription place | .unknownField _ _ place | .selectionOnLeaf _ place
  | .missingSelection _ _ place | .unselectableType _ place | .conflict _ _ place
  | .tooDeep place | .tooManyFields place | .missingArgument _ place | .strayArguments _ _ place
  | .mismatch _ _ _ place | .endlessDefault _ place => [place]
  | .missingQuery | .noOperation | .operationNameRequired | .unknownOperation _ => []

end Rejection

end FeedGraph
