import FeedGraph.Url.Domain.Name
import FeedGraph.Url.Error
import FeedGraph.Url.Ip

/-!
# Host: the names and numbers of hosts

A host in brackets is an address of IPv6. Any other host of a scheme that is served over the network
is the name of a domain, or an address of IPv4 if it ends in a number.
-/

namespace FeedGraph.Host

/-- Reads an address of IPv6 in brackets. -/
def readBracketed (host : List Char) : Except UrlError String :=
  if host.length ≥ 2 ∧ host.getLast? = some ']' ∧ Ip.isIpv6 (host.drop 1).dropLast then
    .ok (String.ofList host)
  else .error .invalidIpv6

/-- Reads a host of a scheme that is served over the network. -/
def readNetworked (host : List Char) : Except UrlError String :=
  if host.head? = some '[' then readBracketed host
  else
    let name? := do
      let decoded ← Percent.text? (Percent.decode host)
      Domain.name? decoded.toList
    match name? with
    | none => .error .invalidName
    | some name =>
      if name.isEmpty then .error .emptyHost
      else if Ip.endsInNumber name && !Ip.isIpv4 name then .error .invalidIpv4
      else .ok (String.ofList name)

/-- The characters that no host can have. -/
def forbidden : List Char := "\x00\t\n\r #/:<>?@[\\]^|".toList

/-- Reads a host of any other scheme. -/
def readOther (host : List Char) : Except UrlError String :=
  if host.head? = some '[' then readBracketed host
  else if host.any forbidden.contains then .error .invalidCharacter
  else .ok (String.ofList (Percent.encode (fun c => c.toNat < 0x20 || c.toNat > 0x7e) host))

end FeedGraph.Host
