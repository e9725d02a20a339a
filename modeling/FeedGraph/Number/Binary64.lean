/-!
# Binary64: the finite doubles, exactly

A finite double is a sign, a significand and an exponent of two, kept in the one canonical form, so
that equal representations and equal doubles are the same thing (zero has two: it keeps its sign).
Arithmetic is exact arithmetic on naturals followed by one rounding, `Binary64.nearest?`: to the
nearest double, a tie to the even significand. A value past the largest double has no result.
-/

namespace FeedGraph

/-- The significand and exponent of a finite double: 53 bits, all of them used unless the exponent
is the smallest there is. -/
abbrev Binary64.Canonical (significand : Nat) (exponent : Int) : Prop :=
  significand < 0x20000000000000 ∧ -1074 ≤ exponent ∧ exponent ≤ 971 ∧
    (0x10000000000000 ≤ significand ∨ exponent = -1074)

/-- A finite double, `significand · 2 ^ exponent` with a sign. -/
structure Binary64 where
  /-- whether the sign is a minus -/
  negative : Bool
  /-- the significand, a whole number -/
  significand : Nat
  /-- the power of two that scales it -/
  exponent : Int
  /-- the form is the canonical one -/
  canonical : Binary64.Canonical significand exponent
  deriving DecidableEq

namespace Binary64

def zero (negative : Bool) : Binary64 := ⟨negative, 0, -1074, by decide⟩

def isZero (x : Binary64) : Bool := x.significand == 0

def negate (x : Binary64) : Binary64 := { x with negative := !x.negative }

/-- Equality of the values: the two zeros are equal, and otherwise only equal representations are,
since these are canonical. -/
def same (x y : Binary64) : Bool := (x.isZero && y.isZero) || decide (x = y)

@[simp] theorem same_self (x : Binary64) : x.same x = true := by simp [same]

def ofParts? (negative : Bool) (significand : Nat) (exponent : Int) : Option Binary64 :=
  if h : Canonical significand exponent then some ⟨negative, significand, exponent, h⟩ else none

/-- The quotient of two naturals rounded to the nearest natural, a tie to the even one. -/
def roundedQuotient (numerator denominator : Nat) : Nat :=
  let quotient := numerator / denominator
  let twice := 2 * (numerator % denominator)
  if twice < denominator then quotient
  else if denominator < twice then quotient + 1
  else if quotient % 2 = 0 then quotient else quotient + 1

/-- The fraction `numerator / denominator` divided by `2 ^ exponent`, again as a fraction. -/
def scaled (numerator denominator : Nat) (exponent : Int) : Nat × Nat :=
  if 0 ≤ exponent then (numerator, denominator * Nat.pow 2 exponent.toNat)
  else (numerator * Nat.pow 2 (-exponent).toNat, denominator)

/-- The double nearest to `numerator / denominator`, a tie to the even significand; none past the
largest double. The exponent tried first is at most one too small, since the logarithms of numerator
and denominator are known to within one. -/
def nearest? (negative : Bool) (numerator denominator : Nat) : Option Binary64 :=
  if numerator = 0 then some (zero negative)
  else
    let guess : Int := max ((numerator.log2 : Int) - denominator.log2 - 53) (-1074)
    let first := scaled numerator denominator guess
    let exponent := if first.1 / first.2 < 0x20000000000000 then guess else guess + 1
    let fraction := scaled numerator denominator exponent
    let significand := roundedQuotient fraction.1 fraction.2
    if significand = 0x20000000000000 then ofParts? negative 0x10000000000000 (exponent + 1)
    else ofParts? negative significand exponent

def ofNat? (negative : Bool) (n : Nat) : Option Binary64 := nearest? negative n 1

def ofInt? (n : Int) : Option Binary64 := ofNat? (decide (n < 0)) n.natAbs

/-- The rounded product. -/
def mul? (x y : Binary64) : Option Binary64 :=
  let fraction := scaled (x.significand * y.significand) 1 (-(x.exponent + y.exponent))
  nearest? (x.negative != y.negative) fraction.1 fraction.2

/-- The rounded quotient of a double by one that is not zero. -/
def div? (x y : Binary64) : Option Binary64 :=
  if y.isZero then none
  else
    let fraction := scaled x.significand y.significand (y.exponent - x.exponent)
    nearest? (x.negative != y.negative) fraction.1 fraction.2

def powerOfTen? (n : Nat) : Option Binary64 := ofNat? false (Nat.pow 10 n)

/-- A double divided by `10 ^ n`, in steps of at most `10 ^ 308`, each of them rounded. -/
def divPowerOfTen? (x : Binary64) (n : Nat) : Option Binary64 :=
  if n ≤ 308 then (powerOfTen? n).bind x.div?
  else if x.isZero then some x
  else ((powerOfTen? 308).bind x.div?).bind fun y => y.divPowerOfTen? (n - 308)
termination_by n

/-- A double multiplied by `10 ^ n`; there is a result for zero whatever `n` is, and otherwise only
up to `10 ^ 308`. -/
def mulPowerOfTen? (x : Binary64) (n : Nat) : Option Binary64 :=
  if n ≤ 308 then (powerOfTen? n).bind x.mul?
  else if x.isZero then some x
  else none

/-- A 64-bit significand scaled by a power of ten. Significand and power are each rounded to a
double first, and so is their product or quotient: three roundings, of which the first two are exact
for up to fifteen digits and powers up to `10 ^ 22`. -/
def ofDecimal? (negative : Bool) (significand : Nat) (exponent : Int) : Option Binary64 := do
  let magnitude ← ofNat? false significand
  let scaled ←
    if 0 ≤ exponent then magnitude.mulPowerOfTen? exponent.toNat
    else magnitude.divPowerOfTen? (-exponent).toNat
  return if negative then scaled.negate else scaled

end Binary64

end FeedGraph
