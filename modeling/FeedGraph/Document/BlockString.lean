/-!
# BlockString: the value of a text between triple quotes

The lines but the first are moved left by their common indent, which is the least number of blanks
before any of their other characters; a line shorter than that stays as it is. Then blank lines at
both ends are dropped.
-/

namespace FeedGraph.BlockString

/-- The lines of a text; a carriage return with the line feed behind it is one break. -/
def lines : List Char → List (List Char)
  | [] => [[]]
  | '\r' :: '\n' :: rest => [] :: lines rest
  | c :: rest =>
    if c = '\r' ∨ c = '\n' then [] :: lines rest
    else
      match lines rest with
      | [] => [[c]]
      | line :: others => (c :: line) :: others

def isIndent (c : Char) : Bool := c == ' ' || c == '\t'

def hasContent (line : List Char) : Bool := line.any (!isIndent ·)

/-- How far a line is indented; nothing for a blank line, which does not count for the common
indent. -/
def indent? (line : List Char) : Option Nat :=
  if hasContent line then some (line.takeWhile isIndent).length else none

def outdent (n : Nat) (line : List Char) : List Char :=
  if n ≤ line.length then line.drop n else line

def dropBlank (ls : List (List Char)) : List (List Char) := ls.dropWhile (!hasContent ·)

/-- The value of what stands between triple quotes. The first line is not moved, and its indent does
not count. -/
def value (raw : List Char) : String :=
  match lines raw with
  | [] => ""
  | first :: others =>
    let indent := ((others.filterMap indent?).min?).getD 0
    let moved := first :: others.map (outdent indent)
    let kept := (dropBlank (dropBlank moved).reverse).reverse
    "\n".intercalate (kept.map String.ofList)

end FeedGraph.BlockString
