import FeedGraph.Url.Authority
import FeedGraph.Url.Segments

/-!
# Reader: from texts to addresses

Control characters and spaces around an address do not count, nor do tabs and line breaks anywhere
in it. Schemes that are served over the network need a host; they and files take backslashes for
slashes.
-/

namespace FeedGraph

namespace Url.Reader

/-- The characters that count. -/
def cleaned (text : String) : List Char :=
  let isOuter (c : Char) : Bool := c.toNat ≤ 0x20
  let inner := ((text.toList.dropWhile isOuter).reverse.dropWhile isOuter).reverse
  inner.filter fun c => c != '\t' && c != '\n' && c != '\r'

/-- The scheme, in lower case, and what follows its colon. -/
def scheme? (chars : List Char) : Option (String × List Char) :=
  let isPart (c : Char) : Bool := c.isAlphanum || c == '+' || c == '-' || c == '.'
  match chars.span isPart with
  | (first :: others, ':' :: rest) =>
    if first.isAlpha then some (String.ofList ((first :: others).map Char.toLower), rest) else none
  | _ => none

/-- Whether a scheme has hosts and paths with slashes in any case. -/
def isSpecial (scheme : String) : Bool := scheme == "file" || Authority.isNetworked scheme

/-- Reads an authority and the path behind it. -/
def readHierarchy (scheme : String) (chars : List Char) (more : Bool) :
    Except UrlError (Option String × Path) := do
  let special := isSpecial scheme
  let (authority, path) := chars.span (!Segments.separates special ·)
  let (authority, rest) ← Authority.read scheme authority (more || !path.isEmpty)
  return (some authority, .segments (Segments.behindAuthority special (rest ++ path)))

/-- Reads the host of a file, which is here if it is empty or says so. -/
def readFileHost (host : List Char) : Except UrlError String := do
  if host.isEmpty then return ""
  let name ← Host.readNetworked host
  return if name == "localhost" then "" else name

/-- Reads the host of a file, if there is one, and the path behind it. A drive is no host, and
leaves none before it. -/
def readFile (chars : List Char) : Except UrlError (Option String × Path) :=
  let isSlash := Segments.separates true
  let startsWithDrive (names : List String) : Bool :=
    (names.head?.map (Segments.isDrive ·.toList)).getD false
  match chars.span isSlash with
  | ([], path) => .ok (some "", .segments (Segments.ofFile path))
  | ([_], path) => .ok (some "", .segments (Segments.ofFile path))
  | (_ :: _ :: slashes, rest) => do
    let (host, path) := (slashes ++ rest).span (!isSlash ·)
    if Segments.isDrive host then return (some "", .segments (Segments.ofFile rest))
    let host ← readFileHost host
    let names := Segments.ofFile (path.drop 1)
    return (some (if startsWithDrive names then "" else host), .segments names)

/-- Reads what stands between the scheme and the query. It may matter whether more follows. -/
def readMiddle (scheme : String) (chars : List Char) (more : Bool) :
    Except UrlError (Option String × Path) :=
  if scheme == "file" then readFile chars
  else if Authority.isNetworked scheme then
    readHierarchy scheme (chars.dropWhile (Segments.separates true)) more
  else
    match chars with
    | '/' :: '/' :: rest => readHierarchy scheme rest more
    | '/' :: rest => .ok (none, .segments (Segments.ofChars false rest))
    | rest => .ok (none, .rootless (Escape.apply Escape.control rest))

end Url.Reader

/-- The address that a text stands for. -/
def Url.ofText (text : String) : Except UrlError Url := do
  match Url.Reader.scheme? (Url.Reader.cleaned text) with
  | none => throw .relative
  | some (scheme, rest) =>
    let (rest, fragment?) := Text.cut '#' rest
    let (middle, query?) := Text.cut '?' rest
    let more := query?.isSome || fragment?.isSome
    let (authority?, path) ← Url.Reader.readMiddle scheme middle more
    return {
      scheme
      authority?
      path
      query? := query?.map (Url.Escape.apply (Url.Escape.query (Url.Reader.isSpecial scheme)))
      fragment? := fragment?.map (Url.Escape.apply Url.Escape.fragment) }

end FeedGraph
