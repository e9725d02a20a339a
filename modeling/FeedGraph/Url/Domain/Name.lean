import FeedGraph.Text.Split
import FeedGraph.Url.Domain.Barred
import FeedGraph.Url.Domain.Direction
import FeedGraph.Url.Domain.Joiner
import FeedGraph.Url.Domain.Mapping
import FeedGraph.Url.Domain.Punycode

/-!
# Name: the names of domains

A name consists of labels with dots between them, in any script. It is read with every character
replaced by what it stands for, and every letter composed. A label may be written in ASCII behind a
prefix; then it must be written in this one form already.
-/

namespace FeedGraph.Domain

/-- What stands before a label that is written in ASCII. -/
def encodedMark : List Char := "xn--".toList

/-- How many characters beyond the prefix a label that is written in ASCII may have. -/
def encodedLimit : Nat := 2000

/-- How many characters a label with some beyond ASCII may have. -/
def labelLimit : Nat := 1000

def isAscii (chars : List Char) : Bool := chars.all (·.toNat < 0x80)

/-- The label that is meant: one behind the prefix is decoded. It must be one that needed it, and be
in the form that names are read in. -/
def decoded? (label : List Char) : Option (List Char) :=
  if encodedMark.isPrefixOf label then do
    let written := label.drop encodedMark.length
    let chars ← Punycode.decode? written
    let isPlain := chars.all (fun c => mapped c == [c]) && composed chars == chars
    let isNeeded := !isAscii chars && !encodedMark.isPrefixOf chars
    if written.length ≤ encodedLimit && isPlain && isNeeded then return chars else none
  else some label

/-- Whether a label can be part of a name: it has no barred characters, does not begin with a mark,
and joins letters only where it makes a difference. -/
def isLabel (label : List Char) : Bool :=
  label.all (!isBarred ·) && !label.head?.any Text.isMark && joinersFit [] label &&
    (isAscii label || label.length ≤ labelLimit)

/-- The name that is written, if it is one. -/
def name? (written : List Char) : Option (List Char) := do
  let labels ← (Text.pieces (· == '.') (composed (written.flatMap mapped))).mapM decoded?
  if labels.all isLabel && readsOneWay labels then return List.intercalate ['.'] labels else none

end FeedGraph.Domain
