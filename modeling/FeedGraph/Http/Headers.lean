import FeedGraph.Text.LowerCase

/-!
# Headers: the header fields of a message

The case of a header's name does not matter: names are kept in lower case, and are looked up in it.
A name may come up more than once; the first counts.
-/

namespace FeedGraph

/-- Header fields in the order in which they were added. -/
structure Headers where
  /-- names in lower case, and values -/
  fields : List (String × String)
  deriving DecidableEq

namespace Headers

def empty : Headers := ⟨[]⟩

def insert (headers : Headers) (name value : String) : Headers :=
  ⟨headers.fields ++ [(Text.lowerCase name, value)]⟩

/-- The value of the first header field with a name. -/
def get? (headers : Headers) (name : String) : Option String :=
  (headers.fields.find? (·.1 = Text.lowerCase name)).map (·.2)

end Headers

end FeedGraph
