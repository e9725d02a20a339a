import FeedGraph.Text.Split
import FeedGraph.Url.Basic
import FeedGraph.Url.Escape

/-!
# Segments: following paths

A path is followed from its start, segment by segment: a dot stays where it is, and two dots lead
back to where the segment before came from, but never out of a drive, which is a letter with a colon
or a bar. The path of a file may begin with a drive, whose bar becomes a colon.
-/

namespace FeedGraph.Url.Segments

def isDrive : List Char → Bool
  | [letter, mark] => letter.isAlpha && (mark == ':' || mark == '|')
  | _ => false

/-- Whether a segment is a dot, however it is written. -/
def isDot (segment : List Char) : Bool :=
  segment == ['.'] || segment.map Char.toLower == "%2e".toList

/-- Whether a segment is two dots, however they are written. -/
def isDots (segment : List Char) : Bool :=
  ["..", ".%2e", "%2e.", "%2e%2e"].any fun dots => segment.map Char.toLower == dots.toList

/-- Where two dots lead. -/
def back (names : List String) : List String :=
  if (names.getLast?.map (isDrive ·.toList)).getD false then names else names.dropLast

/-- Follows segments from some that are already there. A dot or two dots leave an empty segment
behind if they are the last. -/
def follow : List String → List (List Char) → List String
  | names, [] => names
  | names, segment :: rest =>
    let last (names : List String) : List String := if rest.isEmpty then names ++ [""] else names
    if isDots segment then follow (last (back names)) rest
    else if isDot segment then follow (last names) rest
    else follow (names ++ [Escape.apply Escape.segment segment]) rest

/-- Whether a character separates segments; in special schemes a backslash does, too. -/
def separates (special : Bool) (c : Char) : Bool := c == '/' || (special && c == '\\')

/-- The segments behind a slash. -/
def ofChars (special : Bool) (chars : List Char) : List String :=
  follow [] (Text.pieces (separates special) chars)

/-- The segments behind an authority: if there is a path without a slash in front, it gets one.
Special schemes have at least one segment. -/
def behindAuthority (special : Bool) : List Char → List String
  | [] => if special then [""] else []
  | c :: rest => ofChars special (if separates special c then rest else c :: rest)

/-- The segments of a file: empty ones in front do not count, and a drive in front is written with a
colon. -/
def ofFile (chars : List Char) : List String :=
  let segments := match Text.pieces (separates true) chars with
    | [letter, '|'] :: rest => [letter, if letter.isAlpha then ':' else '|'] :: rest
    | segments => segments
  match (follow [] segments).dropWhile String.isEmpty with
  | [] => [""]
  | names => names

end FeedGraph.Url.Segments
