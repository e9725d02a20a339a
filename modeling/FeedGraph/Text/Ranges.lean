/-!
# Ranges: sets of code points as data

A table of a Unicode property is a list of ranges in ascending order. Tables are written as text, in
hexadecimal, `first-last` or a single code point, with blanks or line breaks between them.
-/

namespace FeedGraph.Text

/-- A range of code points, both ends included. -/
structure CodeRange where
  /-- the first code point -/
  first : Nat
  /-- the last code point -/
  last : Nat

namespace CodeRange

/-- The value of a hexadecimal digit in lower case; other characters count as zero. -/
def hexDigit (c : Char) : Nat :=
  if c.isDigit then c.toNat - '0'.toNat
  else if 'a' ≤ c ∧ c ≤ 'f' then c.toNat - 'a'.toNat + 10
  else 0

def hexNumber (digits : List Char) : Nat := digits.foldl (fun n c => 16 * n + hexDigit c) 0

/-- The range written `first-last`, or a single code point. -/
def ofWord (word : String) : CodeRange :=
  match word.splitOn "-" with
  | [first, last] => ⟨hexNumber first.toList, hexNumber last.toList⟩
  | _ => ⟨hexNumber word.toList, hexNumber word.toList⟩

/-- The ranges of a table. -/
def table (text : String) : Array CodeRange :=
  (((text.splitOn "\n").flatMap (·.splitOn " ")).filter (· ≠ "")).map ofWord |>.toArray

/-- Whether a code point is in one of the ranges. -/
def has (ranges : Array CodeRange) (n : Nat) : Bool :=
  ranges.any fun range => range.first ≤ n && n ≤ range.last

end CodeRange

end FeedGraph.Text
