import FeedGraph.Text.Split
import FeedGraph.Url.Escape
import FeedGraph.Url.Host

/-!
# Authority: users, hosts and ports

An authority is a host, with a user before it and a port behind it if they are given. A user without
a name and a password counts as none, and so does a port without digits or one that the scheme has
anyway. There is no user and no port without a host.
-/

namespace FeedGraph.Url.Authority

/-- Schemes that are served over the network, and their ports. -/
def networked : List (String × Nat) :=
  [("http", 80), ("https", 443), ("ws", 80), ("wss", 443), ("ftp", 21)]

/-- The port of a scheme, if it is served over the network. -/
def defaultPort? (scheme : String) : Option Nat := (networked.find? (·.1 = scheme)).map (·.2)

def isNetworked (scheme : String) : Bool := (defaultPort? scheme).isSome

/-- A user before its mark: a name and, behind a colon, a password. -/
def userText (chars : List Char) : String :=
  let (name, password?) := Text.cut ':' chars
  let name := Escape.apply Escape.user name
  let password := Escape.apply Escape.user (password?.getD [])
  if password.isEmpty then if name.isEmpty then "" else name ++ "@"
  else name ++ ":" ++ password ++ "@"

/-- The host, and what follows the colon behind it if there is one; colons in brackets belong to the
host. -/
def hostAndPort : Bool → List Char → List Char × Option (List Char)
  | _, [] => ([], none)
  | inside, c :: rest =>
    if c == ':' && !inside then ([], some rest)
    else
      let (host, port?) := hostAndPort (c == '[' || (inside && c != ']')) rest
      (c :: host, port?)

/-- Reads a port, and what is left behind it: a path may begin there with a backslash. -/
def readPort (chars : List Char) : Except UrlError (Option Nat × List Char) :=
  let (digits, rest) := chars.span Char.isDigit
  let port := digits.foldl (fun n c => 10 * n + (c.toNat - '0'.toNat)) 0
  if port ≥ 0x10000 then .error .invalidPort
  else if rest.isEmpty || rest.head? == some '\\' then
    .ok (if digits.isEmpty then none else some port, rest)
  else .error .invalidPort

/-- Reads the authority of a scheme, and what is left behind its port. It matters to an authority of
nothing but the mark of a user whether more follows. -/
def read (scheme : String) (chars : List Char) (more : Bool) :
    Except UrlError (String × List Char) := do
  let (user?, address) := Text.cutLast '@' chars
  if user? == some [] && address.isEmpty && more then throw .emptyHost
  let user := userText (user?.getD [])
  let (host, port?) := hostAndPort false address
  if host.isEmpty && (isNetworked scheme || port?.isSome || user != "") then throw .emptyHost
  let host ← if isNetworked scheme then Host.readNetworked host else Host.readOther host
  let (port?, rest) ← readPort (port?.getD [])
  let port := match port? with
    | some port => if defaultPort? scheme = some port then "" else s!":{port}"
    | none => ""
  return (user ++ host ++ port, rest)

end FeedGraph.Url.Authority
