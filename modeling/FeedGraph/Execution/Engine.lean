import FeedGraph.Execution.Executor
import FeedGraph.Execution.Request
import FeedGraph.Plan.OfDocument

/-!
# Engine: from a request to a response

A request is read and checked as a whole before anything is executed. There always is a response: a
request that is rejected is answered with an error and without data.
-/

namespace FeedGraph

/-- What requests are answered with. What is said of a text that is no document is up to whoever
reads documents (`DocumentError`), and a parameter here. -/
structure Engine (σ : Type) extends Executor σ where
  /-- what is said of a text that is no document -/
  complain : String → Complaint
  /-- fields may be nested this deep -/
  depthLimit : Nat

namespace Engine

variable {σ : Type}

/-- The plan for a request. A request without a text is rejected before anything else, and one whose
text is no document before its operation is chosen. -/
def plan (engine : Engine σ) (request : Request) : Except Rejection Plan :=
  match request.query? with
  | none => .error .missingQuery
  | some text =>
    match Document.ofText engine.complain text with
    | .error error => .error (.document error)
    | .ok document =>
      Plan.ofDocument engine.schema document request.operationName? (request.variables?.getD [])
        engine.depthLimit

/-- The fiber that answers a request. A rejection is answered at once; the state is not even looked
at. -/
def answer (engine : Engine σ) (request : Request) : Fiber σ Response :=
  match engine.plan request with
  | .ok plan => engine.execute plan
  | .error rejection => .done (.ofRejection rejection)

end Engine

end FeedGraph
