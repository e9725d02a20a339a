import FeedGraph.Number.Shortest
import FeedGraph.Text.Parser

/-!
# Number: the numbers of JSON

A number is an integer from `-2 ^ 63` up to below `2 ^ 64`, or a finite double. Which of the two it
is follows from how it is written: without fraction and exponent it is an integer if it is in range
and not a minus sign before a zero; everything else is a double, and a number past the largest
double is none at all.
-/

namespace FeedGraph

namespace Json

/-- The integers a number can hold. -/
abbrev IntegerRange (n : Int) : Prop := -0x8000000000000000 ≤ n ∧ n < 0x10000000000000000

/-- A number of JSON. -/
inductive Number where
  /-- an integer in range -/
  | integer (n : Int) (inRange : IntegerRange n)
  /-- a finite double -/
  | double (x : Binary64)
  deriving DecidableEq

namespace Number

/-- A natural number; past the range, the largest integer in it. -/
def ofNat (n : Nat) : Number := .integer (min n 0xffffffffffffffff) (by omega)

def ofInt? (n : Int) : Option Number :=
  if h : IntegerRange n then some (.integer n h) else none

def text : Number → String
  | .integer n _ => toString n
  | .double x => x.text

end Number

/-! ## How numbers are written -/

/-- The parts of a written number. -/
structure Decimal where
  /-- whether it starts with a minus sign -/
  negative : Bool
  /-- the digits before the point -/
  whole : List Nat
  /-- the digits behind the point, if there is one -/
  fraction? : Option (List Nat)
  /-- the exponent's minus sign and its digits, if there is one -/
  exponent? : Option (Bool × List Nat)

namespace Decimal

/-- Adds digits to a significand as long as it stays below `2 ^ 64`; also how many were left
over. -/
def accumulate : Nat → List Nat → Nat × List Nat
  | significand, [] => (significand, [])
  | significand, digit :: rest =>
    let next := 10 * significand + digit
    if next < 0x10000000000000000 then accumulate next rest else (significand, digit :: rest)

def value (digits : List Nat) : Nat := digits.foldl (fun n digit => 10 * n + digit) 0

/-- The double that the parts stand for. Digits that do not fit the significand only count by their
place: those before the point raise the exponent, those behind it are dropped. A huge exponent makes
zero if it is negative or the significand is zero, and no number otherwise. -/
def double? (d : Decimal) : Option Binary64 :=
  let (wholeSignificand, dropped) := accumulate 0 d.whole
  let fraction := d.fraction?.getD []
  let (significand, ignored) := accumulate wholeSignificand fraction
  let point : Int := (dropped.length : Int) - (fraction.length - ignored.length : Nat)
  match d.exponent? with
  | none => Binary64.ofDecimal? d.negative significand point
  | some (negative, digits) =>
    let exponent := value digits
    if exponent < 0x80000000 then
      Binary64.ofDecimal? d.negative significand
        (if negative then point - exponent else point + exponent)
    else if significand = 0 ∨ negative then some (.zero d.negative)
    else none

/-- The number that the parts stand for; none if it is past the largest double. -/
def number? (d : Decimal) : Option Number :=
  match d.fraction?, d.exponent? with
  | none, none =>
    let magnitude := value d.whole
    if d.negative then
      if magnitude = 0 then some (.double (.zero true))
      else if h : magnitude ≤ 0x8000000000000000 then some (.integer (-magnitude) (by omega))
      else d.double?.map .double
    else if h : magnitude < 0x10000000000000000 then some (.integer magnitude (by omega))
    else d.double?.map .double
  | _, _ => d.double?.map .double

def digit {ε : Type} : Parser ε Nat :=
  (fun c => c.toNat - '0'.toNat) <$> Parser.satisfy Char.isDigit

def digits {ε : Type} : Parser ε (List Nat) := Parser.many1 digit

/-- A written number: a zero, or digits that do not start with one; then a fraction and an exponent,
both of them optional. -/
def parser {ε : Type} : Parser ε Decimal := do
  let sign ← Parser.optional (Parser.char '-')
  let whole ← (Parser.char '0' *> pure [0]) <|> digits
  let fraction? ← Parser.optional (Parser.char '.' *> digits)
  let exponent? ← Parser.optional do
    let _ ← Parser.char 'e' <|> Parser.char 'E'
    let sign ← Parser.optional (Parser.char '+' <|> Parser.char '-')
    let ds ← digits
    return (sign == some '-', ds)
  return ⟨sign.isSome, whole, fraction?, exponent?⟩

end Decimal

end Json

end FeedGraph
