import FeedGraph.Execution.Resolver
import FeedGraph.Plan.Rejection

/-!
# Response: what a request is answered

The data, absent if nothing was executed and null if a failure reached the root, and the errors with
their places in the document and their paths in the data. What is empty is left out.
-/

namespace FeedGraph

/-- A step from the root of an answer to one of its values. -/
inductive PathStep where
  /-- to the value under an output name -/
  | field (name : String)
  /-- to the item at an index, counted from zero -/
  | index (n : Nat)
  deriving DecidableEq

abbrev Path : Type := List PathStep

/-- Why a field, or an item of its list, has no value. All but the first are found out when a value
is completed. -/
inductive FailureReason where
  /-- its resolver has none -/
  | fault (cause : Fault)
  /-- it is null, which its type does not allow -/
  | null (type field : String)
  /-- it should be a list -/
  | notList (type field : String) (actual : Json.Kind)
  /-- it should be an object of a type -/
  | notObject (expected type field : String) (actual : Json.Kind)
  deriving DecidableEq

/-- The wording of a reason. -/
def FailureReason.message : FailureReason → String
  | .fault cause => cause.message
  | .null type field => s!"Cannot return null for non-nullable field {type}.{field}"
  | .notList type field actual => s!"Expected a list for field {type}.{field}, got {actual.text}"
  | .notObject expected type field actual =>
    s!"Expected an object of type {expected} for field {type}.{field}, got {actual.text}"

/-- A failure in executing an operation. -/
structure Failure where
  /-- why there is no value -/
  reason : FailureReason
  /-- the field's place in the document -/
  position : Position
  /-- where in the data the value is missing -/
  path : Path
  deriving DecidableEq

/-- An error as it is answered. Errors of rejections have no path, and some have no places
either. -/
structure ResponseError where
  /-- the wording -/
  message : String
  /-- the places in the document -/
  locations : List Position
  /-- the place in the data -/
  path : Path
  deriving DecidableEq

/-- What a request is answered. -/
structure Response where
  /-- the data, if the operation was executed -/
  data? : Option Json
  /-- the errors -/
  errors : List ResponseError

namespace PathStep

def toJson : PathStep → Json
  | .field name => .string name
  | .index n => .ofNat n

end PathStep

namespace ResponseError

def ofFailure (failure : Failure) : ResponseError :=
  ⟨failure.reason.message, [failure.position], failure.path⟩

/-- A list as a member, which is left out if the list is empty. -/
def listMember (name : String) : List Json → List (String × Json)
  | [] => []
  | items => [(name, .array items)]

def locationJson (position : Position) : Json :=
  .object [("line", .ofNat position.line), ("column", .ofNat position.column)]

/-- An error as JSON. -/
def toJson (error : ResponseError) : Json :=
  .object (("message", .string error.message) ::
    listMember "locations" (error.locations.map locationJson) ++
    listMember "path" (error.path.map PathStep.toJson))

end ResponseError

namespace Response

/-- The answer to a request that is not executed: one error and no data. -/
def ofRejection (rejection : Rejection) : Response :=
  ⟨none, [⟨rejection.message, rejection.positions, []⟩]⟩

/-- A response as JSON. The data is left out if nothing was executed; null is written. -/
def toJson (response : Response) : Json :=
  .object ((response.data?.map fun data => ("data", data)).toList ++
    ResponseError.listMember "errors" (response.errors.map ResponseError.toJson))

end Response

end FeedGraph
