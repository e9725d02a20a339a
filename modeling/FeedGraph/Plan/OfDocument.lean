import FeedGraph.Plan.Collect

/-!
# OfDocument: from a document to a plan

Chooses the operation, gives its variables their values and checks what it selects.
-/

namespace FeedGraph

/-- The operation that is asked for, and the name it is known by. An operation without a name goes
by any that is asked for; the only operation of a document goes by its own if none is asked for. -/
def Document.choose (document : Document) (name? : Option String) :
    Except Rejection (Option String × Operation) :=
  match document.operations, name? with
  | .anonymous operation, _ => .ok (name?, operation)
  | .named [], _ => .error .noOperation
  | .named [(name, operation)], none => .ok (some name, operation)
  | .named _, none => .error .operationNameRequired
  | .named operations, some name =>
    match Members.get? operations name with
    | some operation => .ok (some name, operation)
    | none => .error (.unknownOperation name)

namespace Operation

/-- The values of declared variables: what is supplied, null included, else the default. A variable
that has neither stays without a value if null is allowed. What is supplied for other variables is
not looked at, nor is the type that a variable is declared with. -/
def bindingsFrom (supplied : Members Json) :
    List VariableDefinition → Members Value → Except Rejection (Members Value)
  | [], bindings => .ok bindings
  | definition :: rest, bindings =>
    match Members.get? supplied definition.name with
    | some json => bindingsFrom supplied rest (Members.set bindings definition.name (.ofJson json))
    | none =>
      match definition.default? with
      | some value => bindingsFrom supplied rest (Members.set bindings definition.name value)
      | none =>
        if definition.type.nullable then bindingsFrom supplied rest bindings
        else .error (.variableNotFound definition.name definition.position)

def bindings (operation : Operation) (supplied : Members Json) : Except Rejection (Members Value) :=
  bindingsFrom supplied operation.declared []

end Operation

namespace Plan

/-- The type that an operation starts from. -/
def rootOf (schema : Schema) (operation : Operation) : Except Rejection TypeDef :=
  match operation.kind with
  | .subscription => .error (.subscription operation.position)
  | kind =>
    match (schema.root? kind).bind schema.type? with
    | some root => .ok root
    | none => .error (.missingRoot kind operation.position)

/-- Checks an operation that uses some fragments: its root first, then its variables, then what it
selects. -/
def ofOperation (schema : Schema) (fragments : List Fragment) (supplied : Members Json)
    (depthLimit : Nat) (name? : Option String) (operation : Operation) : Except Rejection Plan := do
  let root ← rootOf schema operation
  let bindings ← operation.bindings supplied
  let checker : Checker := ⟨schema, bindings, fragments, depthLimit⟩
  let (fields, _) ← (checker.select root operation.selections).run 0
  return ⟨name?, operation.kind, fields⟩

/-- Checks the operation of a document that is asked for. Other operations, and fragments that it
does not use, are not looked at. -/
def ofDocument (schema : Schema) (document : Document) (operationName? : Option String)
    (supplied : Members Json) (depthLimit : Nat) : Except Rejection Plan := do
  let (name?, operation) ← document.choose operationName?
  ofOperation schema document.fragments supplied depthLimit name? operation

end Plan

end FeedGraph
