/-!
# Error: why a text is no address
-/

namespace FeedGraph

/-- Why a text is no address. -/
inductive UrlError where
  /-- it has no scheme -/
  | relative
  /-- there is no host where one is needed -/
  | emptyHost
  /-- the port is no number, or too large -/
  | invalidPort
  /-- the host is no address of IPv4 though it ends like one -/
  | invalidIpv4
  /-- the host in brackets is no address of IPv6 -/
  | invalidIpv6
  /-- the host cannot be the name of a domain -/
  | invalidName
  /-- the host has a character that no host can have -/
  | invalidCharacter
  deriving DecidableEq

def UrlError.message : UrlError → String
  | .relative => "relative URL without a base"
  | .emptyHost => "empty host"
  | .invalidPort => "invalid port number"
  | .invalidIpv4 => "invalid IPv4 address"
  | .invalidIpv6 => "invalid IPv6 address"
  | .invalidName => "invalid international domain name"
  | .invalidCharacter => "invalid domain character"

end FeedGraph
