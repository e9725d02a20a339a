import FeedGraph.Url.Percent

/-!
# Escape: what the parts of an address cannot hold

In every part, control characters and characters beyond ASCII are written byte by byte. So are the
marks that would end the part, or that another reader might take for its end.
-/

namespace FeedGraph.Url.Escape

/-- Control characters, and characters beyond ASCII. -/
def control (c : Char) : Bool := c.toNat < 0x20 || c.toNat > 0x7e

/-- The characters that are escaped in a fragment. -/
def fragment (c : Char) : Bool := control c || " \"<>`".toList.contains c

/-- The characters that are escaped in the query of a scheme. -/
def query (special : Bool) (c : Char) : Bool :=
  control c || " \"#<>".toList.contains c || (special && c == '\'')

/-- The characters that are escaped in a segment of a path. -/
def segment (c : Char) : Bool := fragment c || "#?^\x7b\x7d".toList.contains c

/-- The characters that are escaped in the name and the password of a user. -/
def user (c : Char) : Bool := segment c || "/:;=@[\\]|".toList.contains c

def apply (escapes : Char → Bool) (chars : List Char) : String :=
  String.ofList (Percent.encode escapes chars)

end FeedGraph.Url.Escape
