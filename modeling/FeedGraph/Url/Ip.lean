import FeedGraph.Text.Split
import FeedGraph.Url.Percent

/-!
# Ip: hosts that are numbers

An address of IPv4 is written as up to four numbers with dots between them, which may be hexadecimal
or octal; one of IPv6 as eight groups of hexadecimal digits with colons between them, of which a row
may be left out.
-/

namespace FeedGraph.Ip

/-- The number that digits of a base stand for. -/
def digitsValue? (base : Nat) (digits : List Char) : Option Nat :=
  digits.foldlM (fun n c => do
    let d ← Percent.hexValue? c
    if d < base then return base * n + d else none) 0

/-! ## IPv4 -/

/-- A part of an address of IPv4: hexadecimal behind `0x`, octal behind another zero, else
decimal. -/
def ipv4Part? : List Char → Option Nat
  | [] => none
  | '0' :: 'x' :: digits => digitsValue? 16 digits
  | '0' :: 'X' :: digits => digitsValue? 16 digits
  | '0' :: digits => digitsValue? 8 digits
  | digits => digitsValue? 10 digits

/-- The labels of a name; a last one that is empty does not count. -/
def labels (name : List Char) : List (List Char) :=
  let parts := Text.pieces (· == '.') name
  if parts.length ≥ 2 ∧ parts.getLast? = some [] then parts.dropLast else parts

/-- Whether the last label of a name is a number. -/
def endsInNumber (name : List Char) : Bool :=
  match (labels name).getLast? with
  | none => false
  | some last =>
    (!last.isEmpty && last.all Char.isDigit) ||
      (match last with
        | '0' :: x :: _ => (x == 'x' || x == 'X') && (ipv4Part? last).isSome
        | _ => false)

/-- Whether a name is an address of IPv4: up to four numbers, of which the last fills the bytes that
the others leave. -/
def isIpv4 (name : List Char) : Bool :=
  match (labels name).mapM ipv4Part? with
  | none => false
  | some numbers =>
    numbers.length ≤ 4 && numbers.dropLast.all (· ≤ 255) &&
      (numbers.getLast?.getD 0) < Nat.pow 256 (5 - numbers.length)

/-! ## IPv6 -/

/-- Whether some characters are a group of an address of IPv6: up to four hexadecimal digits. -/
def isIpv6Group (group : List Char) : Bool :=
  1 ≤ group.length && group.length ≤ 4 && group.all fun c => (Percent.hexValue? c).isSome

/-- Whether some characters are a byte in decimal, without zeros in front. -/
def isByte (digits : List Char) : Bool :=
  digits.all Char.isDigit && (digits == ['0'] || digits.head? != some '0') &&
    match digitsValue? 10 digits with
    | some n => !digits.isEmpty && n ≤ 255
    | none => false

/-- How many groups of IPv6 a list of them stands for, if it is one; the last may be four bytes in
decimal, which count as two groups. -/
def ipv6Groups? : List (List Char) → Option Nat
  | [] => some 0
  | [last] =>
    if isIpv6Group last then some 1
    else
      let bytes := Text.pieces (· == '.') last
      if bytes.length = 4 ∧ bytes.all isByte then some 2 else none
  | group :: rest => if isIpv6Group group then (ipv6Groups? rest).map (· + 1) else none

/-- The groups between colons; none if there are no characters. -/
def colonGroups (chars : List Char) : List (List Char) :=
  if chars.isEmpty then [] else Text.pieces (· == ':') chars

/-- What stands before and behind the first two colons in a row. -/
def splitGap : List Char → Option (List Char × List Char)
  | ':' :: ':' :: rest => some ([], rest)
  | c :: rest => (splitGap rest).map fun (before, behind) => (c :: before, behind)
  | [] => none

/-- Whether some characters are an address of IPv6: eight groups, or fewer with a gap. -/
def isIpv6 (chars : List Char) : Bool :=
  match splitGap chars with
  | none => ipv6Groups? (colonGroups chars) == some 8
  | some (before, behind) =>
    match ipv6Groups? (colonGroups before), ipv6Groups? (colonGroups behind) with
    | some n, some m => n + m ≤ 7 && !before.contains '.'
    | _, _ => false

end FeedGraph.Ip
