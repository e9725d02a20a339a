import FeedGraph.Json.Basic

/-!
# Request: what a client sends

The text of a document, the name of one of its operations and values for its variables. All three
may be left out.
-/

namespace FeedGraph

/-- What a client asks for. -/
structure Request where
  /-- the operation that is asked for, if it is named -/
  operationName? : Option String
  /-- the text of the document -/
  query? : Option String
  /-- the values that are supplied for variables -/
  variables? : Option (Members Json)

namespace Request

def optionalText? : Json → Option (Option String)
  | .null => some none
  | .string s => some (some s)
  | _ => none

def optionalMembers? : Json → Option (Option (Members Json))
  | .null => some none
  | .object members => some (some members)
  | _ => none

def ofParts? (operationName query values : Json) : Option Request := do
  return ⟨← optionalText? operationName, ← optionalText? query, ← optionalMembers? values⟩

/-- The request that a body stands for: an object with members for its parts, where what is missing
counts as null and other members do not count, or a list of the three parts. Parts of another type
make it no request. -/
def ofJson? : Json → Option Request
  | .object members =>
    let part (name : String) : Json := (Members.get? members name).getD .null
    ofParts? (part "operationName") (part "query") (part "variables")
  | .array [operationName, query, values] => ofParts? operationName query values
  | _ => none

end Request

end FeedGraph
