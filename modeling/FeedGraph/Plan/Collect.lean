import FeedGraph.Plan.Coercion
import FeedGraph.Plan.Merge

/-!
# Collect: from selections to planned fields

Fragments are read in the place where they are used. While that happens the number of fields is
counted, so that fragments that multiply are stopped in time.

`Selection.collect` follows the selections of a document; what the use of a fragment contributes is
a parameter of it. `expand` supplies that parameter: it knows the fragments that it is inside of,
and how many it may still enter. A chain of fragments with more links than there are fragments has
one of them twice, so that running out is a cycle.
-/

namespace FeedGraph

/-- What selections are checked against. -/
structure Checker where
  /-- the types -/
  schema : Schema
  /-- the variables that have a value -/
  bindings : Members Value
  /-- the fragments that may be used -/
  fragments : List Fragment
  /-- fields may be nested this deep -/
  depthLimit : Nat

namespace Checker

/-- Something that counts fields and may be rejected. When it is rejected, the count is gone. -/
abbrev Counting (α : Type) : Type := StateT Nat (Except Rejection) α

/-- What the use of a fragment contributes, on a type and at a depth: the fields of the fragment
with this name. -/
abbrev Spreader : Type := TypeDef → Nat → String → Position → Counting (List PlannedField)

def countField (place : Position) : Counting Unit := fun count =>
  if fieldLimit < count + 1 then .error (.tooManyFields place) else .ok ((), count + 1)

/-- The field that gives the name of a type; it takes no arguments, and nothing is selected of
it. -/
def typenameField (alias? : Option String) (arguments : List Argument)
    (selections : List Selection) (place : Position) : Except Rejection PlannedField :=
  if !arguments.isEmpty then
    .error (.strayArguments (arguments.map (·.name)) PlannedField.typename place)
  else if !selections.isEmpty then .error (.selectionOnLeaf PlannedField.typename place)
  else .ok ⟨alias?, PlannedField.typename, .named "String" false, [], [], place⟩

mutual

/-- The fields that a selection contributes to what is selected of a type at a depth. A field is
counted first, then its depth is looked at, then its name, what is selected of it and its arguments;
the first of these that is wrong is what it is rejected for. What is selected of an object is merged
here, before the field itself is merged with others. -/
def collect (checker : Checker) (spread : Spreader) (container : TypeDef) (depth : Nat) :
    Selection → Counting (List PlannedField)
  | .field alias? name arguments selections place => do
    countField place
    if checker.depthLimit < depth then throw (.tooDeep place)
    else if name = PlannedField.typename then
      return [← typenameField alias? arguments selections place]
    else
      match checker.schema.field? container.name name with
      | none => throw (.unknownField name container.name place)
      | some definition =>
        let type := definition.type.underlying
        match checker.schema.type? type with
        | none => throw (.unselectableType type place)
        | some typeDef =>
          let fields ←
            match typeDef.kind with
            | .scalar | .enumeration _ =>
              if selections.isEmpty then pure [] else throw (.selectionOnLeaf name place)
            | .object _ =>
              if selections.isEmpty then throw (.missingSelection name type place)
              else do
                let collected ← collectAll checker spread typeDef (depth + 1) selections
                PlannedField.merge collected
            | _ => throw (.unselectableType type place)
          let values ← Coercion.coerceAll checker.schema checker.bindings name place
            definition.arguments arguments
          return [⟨alias?, name, definition.type, values, fields, place⟩]
  | .spread fragment place => spread container depth fragment place
  | .inline _ place => throw (.inlineFragment place)

def collectAll (checker : Checker) (spread : Spreader) (container : TypeDef) (depth : Nat) :
    List Selection → Counting (List PlannedField)
  | [] => pure []
  | selection :: rest => do
    let fields ← collect checker spread container depth selection
    let others ← collectAll checker spread container depth rest
    return fields ++ others

end

/-- What the use of a fragment contributes, inside the fragments on a path, when so many more may be
entered. A fragment on the path is a cycle, whether it would be on the right type or not. -/
def expand (checker : Checker) : Nat → List String → Spreader
  | steps, path, container, depth, name, place =>
    if path.contains name then throw (.fragmentCycle name place)
    else
      match checker.fragments.find? (·.name = name) with
      | none => throw (.fragmentNotFound name place)
      | some fragment =>
        if fragment.on ≠ container.name then
          throw (.fragmentMismatch name container.name fragment.on place)
        else
          match steps with
          | 0 => throw (.fragmentCycle name place)
          | steps + 1 =>
            collectAll checker (checker.expand steps (path ++ [name])) container depth
              fragment.selections

/-- The fields that are selected of a type, merged, starting at the first depth. As many fragments
may be entered as there are, since none is entered inside itself. -/
def select (checker : Checker) (container : TypeDef) (selections : List Selection) :
    Counting (List PlannedField) := do
  let spread := checker.expand checker.fragments.length []
  let collected ← collectAll checker spread container 1 selections
  PlannedField.merge collected

end Checker

end FeedGraph
