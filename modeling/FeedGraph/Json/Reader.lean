import FeedGraph.Json.Basic

/-!
# Reader: strict JSON text

The grammar of JSON and nothing else: no trailing commas or text, no blanks but the four of JSON, no
control characters in texts, no halves of surrogate pairs, and no more than a given number of lists
and objects inside each other. A repeated name keeps its first place and takes its last value.
-/

namespace FeedGraph.Json

/-- Lists and objects may be nested this deep. -/
def nestingLimit : Nat := 127

namespace Reader

/-- Faults are not told apart: a text is JSON or it is not. -/
abbrev P (α : Type) : Type := Parser Empty α

def blanks : P Unit :=
  (fun _ => ()) <$> Parser.many
    (Parser.satisfy fun c => c == ' ' || c == '\n' || c == '\t' || c == '\r')

def token {α : Type} (p : P α) : P α := p <* blanks

def mark (c : Char) : P Unit := token ((fun _ => ()) <$> Parser.char c)

def hexDigit : P Nat :=
  (fun c => c.toNat - '0'.toNat) <$> Parser.satisfy Char.isDigit <|>
  (fun c => c.toNat - 'a'.toNat + 10) <$> Parser.satisfy (fun c => 'a' ≤ c && c ≤ 'f') <|>
  (fun c => c.toNat - 'A'.toNat + 10) <$> Parser.satisfy (fun c => 'A' ≤ c && c ≤ 'F')

def hexQuad : P Nat := do
  let a ← hexDigit
  let b ← hexDigit
  let c ← hexDigit
  let d ← hexDigit
  return ((a * 16 + b) * 16 + c) * 16 + d

/-- What stands behind a backslash. Two halves of a surrogate pair behind each other are one
character; a half by itself is none. -/
def escape : P Char :=
  Parser.char '"' <|> Parser.char '\\' <|> Parser.char '/' <|>
  (Parser.char 'b' *> pure '\x08') <|> (Parser.char 'f' *> pure '\x0c') <|>
  (Parser.char 'n' *> pure '\n') <|> (Parser.char 'r' *> pure '\r') <|>
  (Parser.char 't' *> pure '\t') <|> do
    let _ ← Parser.char 'u'
    let high ← hexQuad
    if 0xd800 ≤ high ∧ high < 0xdc00 then
      Parser.text "\\u"
      let low ← hexQuad
      if 0xdc00 ≤ low ∧ low < 0xe000 then
        return Char.ofNat (0x10000 + (high - 0xd800) * 0x400 + (low - 0xdc00))
      else failure
    else if 0xdc00 ≤ high ∧ high < 0xe000 then failure
    else return Char.ofNat high

def character : P Char :=
  Parser.satisfy (fun c => c != '"' && c != '\\' && 0x20 ≤ c.toNat) <|>
  (Parser.char '\\' *> escape)

def string : P String := do
  let _ ← Parser.char '"'
  let chars ← Parser.many character
  let _ ← Parser.char '"'
  return String.ofList chars

def number : P Number := do
  let decimal ← Decimal.parser
  match decimal.number? with
  | some n => return n
  | none => failure

def scalar : P Json :=
  (Parser.text "null" *> pure .null) <|>
  (Parser.text "true" *> pure (.boolean true)) <|>
  (Parser.text "false" *> pure (.boolean false)) <|>
  (.number <$> number) <|>
  (.string <$> string)

/-- A list of values that are read as given. -/
def list (value : P Json) : P Json := do
  mark '['
  let items ← Parser.optional (Parser.sepBy1 value (mark ','))
  mark ']'
  return .array (items.getD [])

def member (value : P Json) : P (String × Json) := do
  let name ← token string
  mark ':'
  let v ← value
  return (name, v)

/-- An object with values that are read as given. Of a repeated name the last value counts. -/
def object (value : P Json) : P Json := do
  mark '{'
  let members ← Parser.optional (Parser.sepBy1 (member value) (mark ','))
  mark '}'
  return .object (Members.ofPairs (members.getD []))

/-- A value in which lists and objects are nested at most so deep, and the blanks behind it. -/
def value : Nat → P Json :=
  Parser.recursive fun value depth =>
    token scalar <|>
    match depth with
    | 0 => failure
    | depth + 1 => list (value depth) <|> object (value depth)

end Reader

def ofTextWithin? (depth : Nat) (text : String) : Option Json :=
  (Parser.run (Reader.blanks *> Reader.value depth) text).map (·.1)

/-- The value that a text stands for, if it is JSON. -/
def ofText? (text : String) : Option Json := ofTextWithin? nestingLimit text

def ofBytes? (bytes : ByteArray) : Option Json := (String.fromUTF8? bytes).bind ofText?

end FeedGraph.Json
