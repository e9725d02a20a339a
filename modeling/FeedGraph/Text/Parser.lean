import FeedGraph.Text.Position

/-!
# Parser: ordered choice over a text

A parser takes a cursor and gives a value together with the cursor behind what it read, or fails. A
choice tries its alternatives in order and keeps the first that succeeds; a repetition takes as many
as it can; neither reconsiders. Grammars written this way are unambiguous and need no tokens.

Two things are added to that. A cursor carries the first *fault* found on the way to it: something
that is well formed but refused, such as a number with no value. A fault does not make its parser
fail, so that a text that breaks the grammar further on is reported for that; and a fault that lies
on a path given up later is forgotten with it. And recursion goes through `Parser.recursive`, which
lets a rule be entered again only behind the place where it was entered before, so that every parser
is a total function.
-/

namespace FeedGraph

/-- A place in a text, what is left of the text from there, and the first fault before it. -/
structure Cursor (ε : Type) where
  /-- the characters from here on -/
  rest : List Char
  /-- how many there are -/
  left : Nat
  /-- the place of the first of them -/
  position : Position
  /-- the first fault found so far -/
  fault? : Option ε
  /-- the count is right -/
  left_eq : left = rest.length

namespace Cursor

variable {ε : Type}

def ofString (text : String) : Cursor ε :=
  ⟨text.toList, text.toList.length, .start, none, rfl⟩

/-- The next character and the cursor behind it. -/
def next? : Cursor ε → Option (Char × Cursor ε)
  | ⟨[], _, _, _, _⟩ => none
  | ⟨c :: rest, left, position, fault?, h⟩ =>
    some (c, ⟨rest, left - 1, position.after c, fault?, by simp [h]⟩)

/-- Records a fault unless there is an earlier one. -/
def blame (c : Cursor ε) (fault : ε) : Cursor ε := { c with fault? := c.fault?.or (some fault) }

end Cursor

/-- A parser of values of type `α`, which may record faults of type `ε`. -/
def Parser (ε α : Type) : Type := Cursor ε → Option (α × Cursor ε)

namespace Parser

variable {ε α β ι : Type}

instance : Monad (Parser ε) where
  pure a := fun c => some (a, c)
  bind p f := fun c =>
    match p c with
    | none => none
    | some (a, d) => f a d

instance : Alternative (Parser ε) where
  failure := fun _ => none
  orElse p q := fun c =>
    match p c with
    | none => q () c
    | some result => some result

/-- One character of a class. -/
def satisfy (p : Char → Bool) : Parser ε Char := fun c =>
  match c.next? with
  | some (x, d) => if p x then some (x, d) else none
  | none => none

def char (x : Char) : Parser ε Char := satisfy (· == x)

def chars : List Char → Parser ε Unit
  | [] => pure ()
  | x :: xs => do
    let _ ← char x
    chars xs

def text (s : String) : Parser ε Unit := chars s.toList

def here : Parser ε Position := fun c => some (c.position, c)

def blame (fault : ε) : Parser ε Unit := fun c => some ((), c.blame fault)

/-- Succeeds, reading nothing, exactly if the given parser fails here. -/
def notFollowedBy (p : Parser ε α) : Parser ε Unit := fun c =>
  match p c with
  | some _ => none
  | none => some ((), c)

/-- What a parser reads, or nothing. -/
def optional (p : Parser ε α) : Parser ε (Option α) := fun c =>
  match p c with
  | some (a, d) => some (some a, d)
  | none => some (none, c)

/-- As many as there are; the last may read nothing, and ends the repetition. So every round but the
last shortens what is left, by which the recursion ends. -/
def many (p : Parser ε α) (c : Cursor ε) : Option (List α × Cursor ε) :=
  match p c with
  | none => some ([], c)
  | some (a, d) =>
    if d.left < c.left then
      match many p d with
      | some (as, e) => some (a :: as, e)
      | none => none
    else some ([a], d)
termination_by c.left

/-- As many as there are, at least one. -/
def many1 (p : Parser ε α) : Parser ε (List α) := do
  let first ← p
  let others ← many p
  return first :: others

def sepBy1 (p : Parser ε α) (separator : Parser ε β) : Parser ε (List α) := do
  let first ← p
  let others ← many (separator *> p)
  return first :: others

/-- A family of rules that refer to each other: each may be entered again only behind the place
where the present one was entered. A rule that reads nothing before it refers to itself fails there
instead of going on for ever. -/
def recursive (rule : (ι → Parser ε α) → ι → Parser ε α) (i : ι) (c : Cursor ε) :
    Option (α × Cursor ε) :=
  rule (fun j d => if d.left < c.left then recursive rule j d else none) i c
termination_by c.left

/-- The value read from a whole text and the first fault, if the grammar is kept to the end. -/
def run (p : Parser ε α) (s : String) : Option (α × Option ε) :=
  match p (Cursor.ofString s) with
  | some (a, c) => if c.left = 0 then some (a, c.fault?) else none
  | none => none

end Parser

end FeedGraph
