import FeedGraph.Document.Basic
import FeedGraph.Document.BlockString
import FeedGraph.Text.Parser

/-!
# Token: what documents and schemas are written with

Blanks, comments, names, values, types and directives, shared by the grammar of request documents
and that of schemas. Blanks and comments may stand behind every token; they are read together with
it. Keywords are nothing but the characters they consist of, so that nothing has to stand behind
them.
-/

namespace FeedGraph

/-- Something that keeps to the grammar but is refused. -/
inductive GrammarFault where
  /-- a number past the largest double -/
  | invalidNumber (place : Position)
  /-- selections inside too many others -/
  | tooDeep
  /-- a second root for one kind of operation -/
  | repeatedRoot (kind : OperationKind)
  /-- a definition of the roots without one for queries -/
  | missingQueryRoot
  deriving DecidableEq

/-- What is said of a text that is refused: some words, and where they point. It comes from outside;
nothing that is shown depends on it. -/
structure Complaint where
  /-- the words -/
  message : String
  /-- the place, or where it starts -/
  start : Position
  /-- where the place ends, if that is told -/
  stop? : Option Position
  deriving DecidableEq

namespace Grammar

abbrev P (α : Type) : Type := Parser GrammarFault α

def isLineBreak (c : Char) : Bool := c == '\n' || c == '\r'

/-- The blanks: spaces, tabs, commas, byte order marks and line breaks. -/
def isBlank (c : Char) : Bool := c == ' ' || c == ',' || c == '\t' || c == '\ufeff' || isLineBreak c

/-- A comment, up to the end of its line. -/
def comment : P Unit := do
  let _ ← Parser.char '#'
  let _ ← Parser.many (Parser.satisfy (!isLineBreak ·))

def ignored : P Unit :=
  (fun _ => ()) <$> Parser.many ((fun _ => ()) <$> Parser.satisfy isBlank <|> comment)

/-- Something and what is ignored behind it. -/
def token {α : Type} (p : P α) : P α := p <* ignored

def mark (s : String) : P Unit := token (Parser.text s)

/-! ## Names -/

def isNameStart (c : Char) : Bool := c.isAlpha || c == '_'

def isNamePart (c : Char) : Bool := c.isAlphanum || c == '_'

/-- A name, and nothing behind it. -/
def bareName : P String := do
  let first ← Parser.satisfy isNameStart
  let others ← Parser.many (Parser.satisfy isNamePart)
  return String.ofList (first :: others)

def name : P String := token bareName

/-! ## Values -/

/-- A number that no name starts behind. One without a value is a fault, and counts as zero, so that
what is read goes on; the fault is told at the end. -/
def number : P Json.Number := do
  let position ← Parser.here
  let decimal ← Json.Decimal.parser
  Parser.notFollowedBy (Parser.satisfy isNameStart)
  match decimal.number? with
  | some n => return n
  | none =>
    Parser.blame (.invalidNumber position)
    return .ofNat 0

def hexDigit : P Nat :=
  (fun c => c.toNat - '0'.toNat) <$> Parser.satisfy Char.isDigit <|>
  (fun c => c.toNat - 'a'.toNat + 10) <$> Parser.satisfy (fun c => 'a' ≤ c && c ≤ 'f') <|>
  (fun c => c.toNat - 'A'.toNat + 10) <$> Parser.satisfy (fun c => 'A' ≤ c && c ≤ 'F')

/-- Four hexadecimal digits that are the number of a character, and not half of a surrogate pair. -/
def unicodeEscape : P Char := do
  let a ← hexDigit
  let b ← hexDigit
  let c ← hexDigit
  let d ← hexDigit
  if a = 13 ∧ 8 ≤ b then failure
  else return Char.ofNat (((a * 16 + b) * 16 + c) * 16 + d)

def escape : P Char :=
  Parser.char '"' <|> Parser.char '\\' <|> Parser.char '/' <|>
  (Parser.char 'b' *> pure '\x08') <|> (Parser.char 'f' *> pure '\x0c') <|>
  (Parser.char 'n' *> pure '\n') <|> (Parser.char 'r' *> pure '\r') <|>
  (Parser.char 't' *> pure '\t') <|> (Parser.char 'u' *> unicodeEscape)

def character : P Char :=
  Parser.satisfy (fun c => c != '"' && c != '\\' && !isLineBreak c) <|>
  (Parser.char '\\' *> escape)

/-- Characters inside a text between triple quotes: triple quotes behind a backslash, or one
character that does not start triple quotes. -/
def blockCharacters : P (List Char) :=
  (Parser.text "\\\"\"\"" *> pure ['\\', '"', '"', '"']) <|> do
    Parser.notFollowedBy (Parser.text "\"\"\"")
    let c ← Parser.satisfy fun _ => true
    return [c]

def blockString : P String := do
  Parser.text "\"\"\""
  let chars ← Parser.many blockCharacters
  Parser.text "\"\"\""
  return BlockString.value chars.flatten

def string : P String :=
  token (blockString <|> do
    let _ ← Parser.char '"'
    let chars ← Parser.many character
    let _ ← Parser.char '"'
    return String.ofList chars)

def variableName : P String := mark "$" *> name

/-- A member of an enumeration: a name that does not start like one of the other values. -/
def enumerationValue : P String :=
  token do
    Parser.notFollowedBy (Parser.text "true" <|> Parser.text "false" <|> Parser.text "null")
    bareName

def member (value : P Literal) : P (String × Literal) := do
  let n ← name
  mark ":"
  let v ← value
  return (n, v)

/-- A value, with or without variables in it. -/
def value (withVariables : Bool) : P Literal :=
  Parser.recursive (fun value (_ : Unit) =>
    (if withVariables then .variable <$> variableName else failure) <|>
    (.number <$> token number) <|>
    (.string <$> string) <|>
    (mark "true" *> pure (.boolean true)) <|>
    (mark "false" *> pure (.boolean false)) <|>
    (mark "null" *> pure .null) <|>
    (.enumeration <$> enumerationValue) <|>
    (do
      mark "["
      let items ← Parser.many (value ())
      mark "]"
      return .list items) <|>
    (do
      mark "\x7b"
      let members ← Parser.many (member (value ()))
      mark "\x7d"
      return .object (Members.ofPairs members))) ()

def constant : P Value := do
  let literal ← value false
  match literal.toValue? with
  | some v => return v
  | none => failure

/-- A default, behind an equals sign, and where it stands. -/
def defaultValue : P (Value × Position) := do
  mark "="
  let position ← Parser.here
  let v ← constant
  return (v, position)

/-! ## Arguments, directives and types -/

def argument (withVariables : Bool) : P Argument := do
  let n ← name
  mark ":"
  let position ← Parser.here
  let v ← value withVariables
  return ⟨n, v, position⟩

def arguments (withVariables : Bool) : P (List Argument) := do
  mark "("
  let as ← Parser.many1 (argument withVariables)
  mark ")"
  return as

/-- One directive. It is read and dropped. -/
def directive (withVariables : Bool) : P Unit := do
  mark "@"
  let _ ← name
  let _ ← Parser.optional (arguments withVariables)

def directives1 (withVariables : Bool) : P Unit :=
  (fun _ => ()) <$> Parser.many1 (directive withVariables)

def directives (withVariables : Bool) : P Unit :=
  (fun _ => ()) <$> Parser.optional (directives1 withVariables)

/-- A type, with nothing ignored inside it or behind it. -/
def bareType : P TypeRef :=
  Parser.recursive (fun type (_ : Unit) => do
    let make : Bool → TypeRef ←
      (do
        let n ← bareName
        return TypeRef.named n) <|>
      (do
        let _ ← Parser.char '['
        let item ← type ()
        let _ ← Parser.char ']'
        return TypeRef.list item)
    let bang ← Parser.optional (Parser.char '!')
    return make bang.isNone) ()

def type : P TypeRef := token bareType

def operationKind : P OperationKind :=
  (mark "query" *> pure .query) <|>
  (mark "mutation" *> pure .mutation) <|>
  (mark "subscription" *> pure .subscription)

end Grammar

end FeedGraph
