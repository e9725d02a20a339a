import FeedGraph.Text.Ranges

/-!
# Substitution: tables of what single characters stand for

A table has rows of consecutive code points, each of which stands for some text. It is written in
hexadecimal: `first:text,text` with a text for every code point of the row, whose code points have
plus signs between them, or `first-last:target` for a row of code points that all stand for one at
the same distance.
-/

namespace FeedGraph.Text

/-- Consecutive code points, and what each of them stands for. -/
structure SubstitutionRow where
  /-- the first code point -/
  first : Nat
  /-- what each of them stands for -/
  texts : Array (List Char)

/-- A table of what single characters stand for. -/
abbrev Substitution := Array SubstitutionRow

namespace Substitution

def textOf (item : String) : List Char :=
  (item.splitOn "+").map fun word => Char.ofNat (CodeRange.hexNumber word.toList)

/-- The row written `first:text,text` or `first-last:target`. -/
def rowOf (word : String) : SubstitutionRow :=
  match word.splitOn ":" with
  | [sources, texts] =>
    let range := CodeRange.ofWord sources
    if sources.contains '-' then
      let target := CodeRange.hexNumber texts.toList
      let count := range.last + 1 - range.first
      ⟨range.first, ((List.range count).map fun i => [Char.ofNat (target + i)]).toArray⟩
    else ⟨range.first, ((texts.splitOn ",").map textOf).toArray⟩
  | _ => ⟨0, #[]⟩

def ofText (text : String) : Substitution :=
  (((text.splitOn "\n").flatMap (·.splitOn " ")).filter (· ≠ "")).map rowOf |>.toArray

/-- What a character stands for, if it stands for another text. -/
def text? (table : Substitution) (c : Char) : Option (List Char) :=
  table.findSome? fun row => if row.first ≤ c.toNat then row.texts[c.toNat - row.first]? else none

/-- The character that stands for a text, if there is one. -/
def source? (table : Substitution) (text : List Char) : Option Char :=
  table.findSome? fun row =>
    (row.texts.findIdx? (· == text)).map fun i => Char.ofNat (row.first + i)

end Substitution

end FeedGraph.Text
