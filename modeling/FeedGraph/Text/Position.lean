/-!
# Position: where in a text something starts

Lines and columns are counted from one, in characters. A line feed starts a new line; a carriage
return goes back to the first column of the same line; every other character takes one column.
-/

namespace FeedGraph

/-- A place in a text. -/
structure Position where
  /-- the line, counted from one -/
  line : Nat
  /-- the column, counted from one in characters -/
  column : Nat
  deriving DecidableEq, Repr

namespace Position

/-- What is no place of any character, and stands for one that is not known. -/
def nowhere : Position := ⟨0, 0⟩

def start : Position := ⟨1, 1⟩

def after (p : Position) (c : Char) : Position :=
  if c = '\n' then ⟨p.line + 1, 1⟩
  else if c = '\r' then ⟨p.line, 1⟩
  else ⟨p.line, p.column + 1⟩

end Position

end FeedGraph
