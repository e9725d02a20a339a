import FeedGraph.Document.Token
import FeedGraph.Text.Blank

/-!
# Reader: request documents from text

`Document.ofText` reads a document, or says why it is none. A breach of the grammar comes before
everything else; then the first fault in the text, a number without value or selections that are
nested too deep; then definitions that do not go together, in the order in which they stand.

Whether a text keeps to the grammar is decided here, and nothing else depends on how a breach is put
in words. The words, and for a breach of the grammar the places, are those of a parser that is not
modelled: they are a parameter, from the text to a `Complaint`.
-/

namespace FeedGraph

/-- Why a text is no document. -/
inductive DocumentError where
  /-- the text breaks the grammar, or a number in it is past the largest double -/
  | malformed (complaint : Complaint)
  /-- selections inside too many others -/
  | tooDeep
  /-- an operation without a name is not the only one -/
  | severalOperations (anonymous other : Position)
  /-- two operations have the same name -/
  | operationDuplicated (name : String) (first second : Position)
  /-- two fragments have the same name -/
  | fragmentDuplicated (name : String) (first second : Position)
  /-- there is no operation -/
  | missingOperation
  deriving DecidableEq

namespace DocumentError

/-- The wording of an error. What a parser says of a text is kept, without the blanks around it. -/
def message : DocumentError → String
  | .malformed complaint =>
    "Syntax error: " ++ String.ofList (Text.trimmed complaint.message.toList)
  | .tooDeep => "Unknown error"
  | .severalOperations .. => "Multiple operations"
  | .operationDuplicated name .. => s!"Operation {name} duplicated"
  | .fragmentDuplicated name .. => s!"Fragment {name} duplicated"
  | .missingOperation => "Missing operation"

/-- The places an error points at. A parser tells where a breach starts and, of some, where it ends;
a place that it does not know is left out. -/
def positions : DocumentError → List Position
  | .malformed complaint => (complaint.start :: complaint.stop?.toList).filter (· ≠ .nowhere)
  | .tooDeep | .missingOperation => []
  | .severalOperations anonymous other => [anonymous, other]
  | .operationDuplicated _ first second => [first, second]
  | .fragmentDuplicated _ first second => [first, second]

end DocumentError

namespace Grammar

def selectionNesting : Nat := 64

/-- The type a fragment is for. Behind the keyword there is at least one blank, and no comment. -/
def typeCondition : P String :=
  token do
    Parser.text "on"
    let _ ← Parser.many1 (Parser.satisfy isBlank)
    bareName

def fieldAlias : P String := name <* mark ":"

/-- A field; what it selects is read as given, so that nesting can be counted outside. -/
def field (nested : P (List Selection)) : P Selection := do
  let position ← Parser.here
  let alias? ← Parser.optional fieldAlias
  let n ← name
  let as ← Parser.optional (arguments true)
  directives true
  let selections ← Parser.optional nested
  return .field alias? n (as.getD []) (selections.getD []) position

def inlineFragment (nested : P (List Selection)) : P Selection := do
  let position ← Parser.here
  mark "..."
  let _ ← Parser.optional typeCondition
  directives true
  let selections ← nested
  return .inline selections position

def fragmentSpread : P Selection := do
  let position ← Parser.here
  mark "..."
  Parser.notFollowedBy typeCondition
  let n ← name
  directives true
  return .spread n position

/-- Selections in braces, below which others may be nested so deep. Deeper ones are a fault. -/
def selectionSet : Nat → P (List Selection) :=
  Parser.recursive fun selectionSet depth => do
    let nested : P (List Selection) := match depth with
      | 0 => Parser.blame .tooDeep *> selectionSet 0
      | depth + 1 => selectionSet depth
    mark "\x7b"
    let selections ← Parser.many1 (field nested <|> inlineFragment nested <|> fragmentSpread)
    mark "\x7d"
    return selections

def variableDefinition : P VariableDefinition := do
  mark "$"
  let position ← Parser.here
  let n ← name
  mark ":"
  let t ← type
  directives true
  let default? ← Parser.optional defaultValue
  return ⟨n, position, t, default?.map (·.1)⟩

def variableDefinitions : P (List VariableDefinition) := do
  mark "("
  let vs ← Parser.many variableDefinition
  mark ")"
  return vs

/-- A definition in a request document. -/
inductive Definition where
  /-- an operation, with or without a name -/
  | operation (name? : Option String) (operation : Operation)
  /-- a fragment -/
  | fragment (fragment : Fragment)

def keywordOperation : P Definition := do
  let position ← Parser.here
  let kind ← operationKind
  let name? ← Parser.optional name
  let declared ← Parser.optional variableDefinitions
  directives true
  let selections ← selectionSet selectionNesting
  return .operation name? ⟨kind, declared.getD [], selections, position⟩

def shortQuery : P Definition := do
  let position ← Parser.here
  let selections ← selectionSet selectionNesting
  return .operation none ⟨.query, [], selections, position⟩

def fragmentDefinition : P Definition := do
  let position ← Parser.here
  mark "fragment"
  let n ← name
  let on ← typeCondition
  directives true
  let selections ← selectionSet selectionNesting
  return .fragment ⟨n, on, selections, position⟩

/-- The definitions of a request document. -/
def executableDocument : P (List Definition) :=
  ignored *> Parser.many1 (keywordOperation <|> shortQuery <|> fragmentDefinition)

end Grammar

namespace Document

open Grammar (Definition)

/-- What has been put together of a document so far. -/
structure Draft where
  /-- the operation without a name, if there is one -/
  anonymous? : Option Operation
  /-- the operations with names -/
  named : List (String × Operation)
  /-- the fragments -/
  fragments : List Fragment

/-- Adds an operation. One without a name has to stay the only one; names have to differ. -/
def Draft.addOperation (draft : Draft) (name? : Option String) (operation : Operation) :
    Except DocumentError Draft :=
  match name?, draft.anonymous?, draft.named with
  | none, none, [] => .ok { draft with anonymous? := some operation }
  | none, some other, _ => .error (.severalOperations operation.position other.position)
  | none, none, (_, other) :: _ => .error (.severalOperations operation.position other.position)
  | some _, some other, _ => .error (.severalOperations other.position operation.position)
  | some name, none, others =>
    match Members.get? others name with
    | some other => .error (.operationDuplicated name other.position operation.position)
    | none => .ok { draft with named := others ++ [(name, operation)] }

def Draft.addFragment (draft : Draft) (fragment : Fragment) : Except DocumentError Draft :=
  match draft.fragments.find? (·.name = fragment.name) with
  | some other => .error (.fragmentDuplicated fragment.name other.position fragment.position)
  | none => .ok { draft with fragments := draft.fragments ++ [fragment] }

def Draft.add (draft : Draft) : Definition → Except DocumentError Draft
  | .operation name? operation => draft.addOperation name? operation
  | .fragment fragment => draft.addFragment fragment

/-- Puts a document together from its definitions, from the first to the last, so that the first one
that does not go with those before it is what is told. -/
def ofDefinitions (definitions : List Definition) : Except DocumentError Document := do
  let draft ← definitions.foldlM Draft.add ⟨none, [], []⟩
  match draft.anonymous?, draft.named with
  | some operation, _ => return ⟨.anonymous operation, draft.fragments⟩
  | none, [] => throw .missingOperation
  | none, named => return ⟨.named named, draft.fragments⟩

/-- The document that a text stands for. What a number past the range is reported for is where it
stands. -/
def ofText (complain : String → Complaint) (text : String) : Except DocumentError Document :=
  match Grammar.executableDocument.run text with
  | none => .error (.malformed (complain text))
  | some (_, some (.invalidNumber place)) => .error (.malformed ⟨(complain text).message, place, none⟩)
  | some (_, some _) => .error .tooDeep
  | some (definitions, none) => ofDefinitions definitions

end Document

end FeedGraph
