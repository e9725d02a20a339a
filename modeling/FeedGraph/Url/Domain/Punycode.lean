/-!
# Punycode: names written in ASCII

A text is written in letters, digits and hyphens of ASCII: first those of its characters that are
ASCII, then, behind a hyphen, where to insert the others, in the order of their code points. Each
insertion is a number that counts the places passed over since the one before. Its digits have
weights that depend on how large the numbers before were, and the last one is smaller than a
threshold.
-/

namespace FeedGraph.Domain.Punycode

def digit? (c : Char) : Option Nat :=
  if 'a' ≤ c ∧ c ≤ 'z' then some (c.toNat - 'a'.toNat)
  else if c.isDigit then some (c.toNat - '0'.toNat + 26)
  else none

/-- A digit below the threshold of its place is the last one of its number. -/
def threshold (place bias : Nat) : Nat := max 1 (min 26 (36 * (place + 1) - bias))

/-- Counts how often a number can be divided by 35 until it is no more than 455. -/
def scaled (n : Nat) : Nat × Nat :=
  if n > 455 then
    let (times, rest) := scaled (n / 35)
    (times + 1, rest)
  else (0, n)
termination_by n
decreasing_by exact Nat.div_lt_self (by omega) (by omega)

/-- The bias after a number, which was inserted into a text that now has some length. -/
def bias (number length : Nat) (isFirst : Bool) : Nat :=
  let damped := if isFirst then number / 700 else number / 2
  let (times, rest) := scaled (damped + damped / length)
  36 * times + 36 * rest / (rest + 38)

structure State where
  /-- the text -/
  text : List Char
  /-- the code point to insert next -/
  point : Nat := 0x80
  /-- the place in the text where it goes, if nothing is passed over -/
  position : Nat := 0
  /-- how the weights of digits are set -/
  bias : Nat := 72
  /-- whether no number has been read -/
  isFirst : Bool := true
  /-- the number of digits that have been read of a number -/
  digits : Nat := 0
  /-- the weight of its next digit -/
  weight : Nat := 1
  /-- what its digits are worth -/
  number : Nat := 0

/-- Inserts a character where a number says, if there is such a character. -/
def State.insert? (state : State) (number : Nat) : Option State :=
  let length := state.text.length + 1
  let place := state.position + number
  let point := state.point + place / length
  if point.isValidChar then
    some {
      text := state.text.insertIdx (place % length) (Char.ofNat point)
      point
      position := place % length + 1
      bias := Punycode.bias number length state.isFirst
      isFirst := false }
  else none

def State.read? (state : State) (c : Char) : Option State := do
  let digit ← digit? c
  let number := state.number + digit * state.weight
  let threshold := threshold state.digits state.bias
  if digit < threshold then state.insert? number
  else return { state with
    digits := state.digits + 1
    weight := state.weight * (36 - threshold)
    number }

/-- The text that is written, with letters in lower case. -/
def decode? (written : List Char) : Option (List Char) := do
  let (plain, insertions) :=
    match (written.reverse.span (· != '-')) with
    | (insertions, _ :: plain@(_ :: _)) => (plain.reverse, insertions.reverse)
    | _ => ([], written)
  if plain.any (·.toNat ≥ 0x80) then none
  let state ← insertions.foldlM State.read? { text := plain }
  if state.digits = 0 then return state.text else none

end FeedGraph.Domain.Punycode
