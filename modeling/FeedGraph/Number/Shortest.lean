import FeedGraph.Number.Binary64

/-!
# Shortest: the fewest digits that read back

`Binary64.shortest` finds the decimal with the fewest significant digits that lies in the interval
of reals rounding to a double, and of two such decimals the nearer. Everything is exact arithmetic
on naturals.

`Binary64.text` lays those digits out: positional from `0.00001` up to below `10 ^ 16`, with at
least one digit after the point; otherwise with one digit before the point and an exponent with its
sign.
-/

namespace FeedGraph

namespace Binary64

/-- An interval of positive reals with a distinguished point, over one common denominator. -/
structure Neighbourhood where
  /-- numerator of the lower end -/
  lower : Nat
  /-- numerator of the point itself -/
  point : Nat
  /-- numerator of the upper end -/
  upper : Nat
  /-- the common denominator -/
  denominator : Nat
  /-- whether the ends belong to the interval -/
  closed : Bool

/-- The reals that round to a given double other than zero. The ends lie half way to the
neighbouring doubles, and belong to it exactly if its significand is even. Below a power of two the
neighbour is only half as far away. -/
def neighbourhood (x : Binary64) : Neighbourhood :=
  let below := if x.significand = 0x10000000000000 ∧ x.exponent ≠ -1074 then 1 else 2
  let exponent := x.exponent - 2
  let scale := Nat.pow 2 exponent.toNat
  { lower := (4 * x.significand - below) * scale
    point := 4 * x.significand * scale
    upper := (4 * x.significand + 2) * scale
    denominator := Nat.pow 2 (-exponent).toNat
    closed := x.significand % 2 = 0 }

namespace Neighbourhood

/-- `digits · 10 ^ exponent` as a numerator over a denominator that is multiplied by the second
component. -/
def decimalOver (digits : Nat) (exponent : Int) : Nat × Nat :=
  (digits * Nat.pow 10 exponent.toNat, Nat.pow 10 (-exponent).toNat)

/-- Whether `digits · 10 ^ exponent` lies in the interval. -/
def has (n : Neighbourhood) (digits : Nat) (exponent : Int) : Bool :=
  let decimal := decimalOver digits exponent
  let value := decimal.1 * n.denominator
  let lower := n.lower * decimal.2
  let upper := n.upper * decimal.2
  if n.closed then decide (lower ≤ value ∧ value ≤ upper)
  else decide (lower < value ∧ value < upper)

/-- How far `digits · 10 ^ exponent` is from the point, on a scale shared by all digits with this
exponent. -/
def distance (n : Neighbourhood) (digits : Nat) (exponent : Int) : Nat :=
  let decimal := decimalOver digits exponent
  let value := decimal.1 * n.denominator
  let point := n.point * decimal.2
  (value - point) + (point - value)

def below (n : Neighbourhood) (exponent : Int) : Nat :=
  n.point * Nat.pow 10 (-exponent).toNat / (n.denominator * Nat.pow 10 exponent.toNat)

/-- The exponent of ten of the leading digit, looked for upward from a guess that is not too
large. -/
def leadingExponentFrom (n : Neighbourhood) : Nat → Int → Int
  | 0, guess => guess
  | steps + 1, guess =>
    if n.below (guess + 1) = 0 then guess else n.leadingExponentFrom steps (guess + 1)

/-- The exponent of ten of the point's leading digit. Three tenths of a binary logarithm, rounded
down and less two, is a guess that is not too large, and at most a few steps off. -/
def leadingExponent (n : Neighbourhood) : Int :=
  let binary : Int := (n.point.log2 : Int) - n.denominator.log2
  n.leadingExponentFrom 8 (binary * 30103 / 100000 - 2)

/-- The nearer of the two neighbours of the point on the grid `10 ^ exponent` that lie in the
interval; a tie goes to the even one. -/
def onGrid? (n : Neighbourhood) (exponent : Int) : Option Nat :=
  let low := n.below exponent
  let high := low + 1
  match n.has low exponent, n.has high exponent with
  | true, true =>
    let toLow := n.distance low exponent
    let toHigh := n.distance high exponent
    if toLow < toHigh then some low
    else if toHigh < toLow then some high
    else if low % 2 = 0 then some low else some high
  | true, false => some low
  | false, true => some high
  | false, false => none

end Neighbourhood

/-- Moves trailing zeros of the digits into the exponent. -/
def dropZeros : Nat → Nat → Int → Nat × Int
  | 0, digits, exponent => (digits, exponent)
  | steps + 1, digits, exponent =>
    if digits % 10 = 0 ∧ digits ≠ 0 then dropZeros steps (digits / 10) (exponent + 1)
    else (digits, exponent)

/-- The shortest decimal `digits · 10 ^ exponent` that rounds to a double other than zero. Seventeen
digits always suffice, so that the search ends with the exact digits only for zero. -/
def shortest (x : Binary64) : Nat × Int :=
  let n := x.neighbourhood
  let leading := n.leadingExponent
  let found := (List.range 17).findSome? fun (more : Nat) =>
    let exponent := leading - more
    (n.onGrid? exponent).map fun digits => (digits, exponent)
  match found with
  | some (digits, exponent) => dropZeros 20 digits exponent
  | none => (0, 0)

/-- Lays out digits whose first one stands at the power `leading` of ten. -/
def layout (digits : String) (leading : Int) : String :=
  let count : Int := digits.length
  if -5 ≤ leading ∧ leading < 16 then
    if count ≤ leading + 1 then
      digits ++ "".pushn '0' (leading + 1 - count).toNat ++ ".0"
    else if 0 ≤ leading then
      (digits.take (leading + 1).toNat).toString ++ "." ++
        (digits.drop (leading + 1).toNat).toString
    else
      "0." ++ "".pushn '0' (-leading - 1).toNat ++ digits
  else
    let mantissa :=
      if digits.length = 1 then digits
      else (digits.take 1).toString ++ "." ++ (digits.drop 1).toString
    mantissa ++ (if leading < 0 then "e-" else "e+") ++ toString leading.natAbs

def text (x : Binary64) : String :=
  let magnitude :=
    if x.isZero then "0.0"
    else
      let (digits, exponent) := x.shortest
      let digitText := toString digits
      layout digitText (exponent + digitText.length - 1)
  if x.negative then "-" ++ magnitude else magnitude

end Binary64

end FeedGraph
