/-!
# IntegerFormat: decimal integers of a fixed width

An integer is written as an optional sign and one or more ASCII digits, with any number of zeros in
front. A minus sign is a sign only where negative numbers are. Digits are read from the left, and
the first one that is no digit or leads out of range decides what is wrong.

`IntegerFormat.read` gives a number of the format or the fault.
-/

namespace FeedGraph

/-- A range of integers: those of so many bits, with or without a sign. -/
structure IntegerFormat where
  /-- whether there are negative numbers -/
  signed : Bool
  /-- the number of bits -/
  bits : Nat
  deriving DecidableEq

/-- Why a text is no integer of a format. -/
inductive IntegerFault where
  /-- there is no text -/
  | empty
  /-- there is something other than a digit -/
  | invalidDigit
  /-- the number is above the range -/
  | tooLarge
  /-- the number is below the range -/
  | tooSmall
  deriving DecidableEq

def IntegerFault.message : IntegerFault → String
  | .empty => "cannot parse integer from empty string"
  | .invalidDigit => "invalid digit found in string"
  | .tooLarge => "number too large to fit in target type"
  | .tooSmall => "number too small to fit in target type"

namespace IntegerFormat

def natural8 : IntegerFormat := ⟨false, 8⟩

def natural16 : IntegerFormat := ⟨false, 16⟩

def natural64 : IntegerFormat := ⟨false, 64⟩

def integer32 : IntegerFormat := ⟨true, 32⟩

def integer64 : IntegerFormat := ⟨true, 64⟩

/-- The largest number of a format. -/
def highest (format : IntegerFormat) : Nat :=
  if format.signed then Nat.pow 2 (format.bits - 1) - 1 else Nat.pow 2 format.bits - 1

/-- How far a format goes below zero. -/
def depth (format : IntegerFormat) : Nat :=
  if format.signed then Nat.pow 2 (format.bits - 1) else 0

/-- The numbers of a format. -/
def Holds (format : IntegerFormat) (n : Int) : Prop := -format.depth ≤ n ∧ n ≤ format.highest

/-- Goes on reading digits behind some that have been read, up to a limit. Every digit is checked
against it, so that no number is ever larger on the way. -/
def readDigits (limit : Nat) (beyond : IntegerFault) : Nat → List Char → Except IntegerFault Nat
  | n, [] => .ok n
  | n, c :: rest =>
    if c.isDigit then
      let next := 10 * n + (c.toNat - '0'.toNat)
      if next ≤ limit then readDigits limit beyond next rest else .error beyond
    else .error .invalidDigit

/-- Reads one or more digits behind a sign. A sign alone is told apart from no text at all. -/
def readSigned (limit : Nat) (beyond : IntegerFault) : List Char → Except IntegerFault Nat
  | [] => .error .invalidDigit
  | digits => readDigits limit beyond 0 digits

/-- The number that a text stands for. Below zero a format goes one further than above, which is why
the sign decides about the limit. -/
def read (format : IntegerFormat) : List Char → Except IntegerFault Int
  | [] => .error .empty
  | '+' :: digits => Int.ofNat <$> readSigned format.highest .tooLarge digits
  | '-' :: digits =>
    if format.signed then (fun n => -Int.ofNat n) <$> readSigned format.depth .tooSmall digits
    else .error .invalidDigit
  | digits => Int.ofNat <$> readDigits format.highest .tooLarge 0 digits

end IntegerFormat

end FeedGraph
