import FeedGraph.Execution.Response
import FeedGraph.Plan.Field
import FeedGraph.Schema.Basic

/-!
# Executor: from a plan to a response

Every selected field is resolved, and its outcome is shaped as its type says. What cannot be shaped
is a failure. A failure makes the nearest value around it null whose type allows it, and if there is
none, the whole data; it does not keep other fields from being resolved.

The fields of one object are resolved in turns (`Fiber.all`), but those of a mutation's root one
after the other (`Fiber.sequence`).
-/

namespace FeedGraph

/-- What has become of a value: itself, unless a failure has to go on to what is around it, and the
failures on the way. A value may come with failures, those that were stopped inside of it. -/
structure Completion where
  /-- the value, if there is one -/
  value? : Option Json
  /-- the failures, in the order of the document -/
  failures : List Failure

namespace Completion

def value (json : Json) : Completion := ⟨some json, []⟩

def failed (failure : Failure) : Completion := ⟨none, [failure]⟩

/-- Stops a failure where null is allowed. -/
def absorb (nullable : Bool) (completion : Completion) : Completion :=
  match completion.value? with
  | none => if nullable then ⟨some .null, completion.failures⟩ else completion
  | some _ => completion

def allFailures (completions : List Completion) : List Failure :=
  completions.flatMap (·.failures)

/-- An object of completed values; it fails if one of them does. The failures of all of them are
kept in either case, since a failure does not keep others from being reported. -/
def object (names : List String) (completions : List Completion) : Completion :=
  ⟨(completions.mapM Completion.value?).map fun values =>
      .object (Members.ofPairs (names.zip values)),
    allFailures completions⟩

/-- A list of completed values; it fails if one of them does. -/
def list (completions : List Completion) : Completion :=
  ⟨(completions.mapM Completion.value?).map .array, allFailures completions⟩

@[simp] theorem failures_absorb (nullable : Bool) (completion : Completion) :
    (completion.absorb nullable).failures = completion.failures := by
  rw [absorb]
  cases completion.value? with
  | none => cases nullable <;> rfl
  | some _ => rfl

theorem absorb_of_value {completion : Completion} {json : Json} (nullable : Bool)
    (h : completion.value? = some json) : completion.absorb nullable = completion := by
  rw [absorb, h]

end Completion

/-- What plans are executed with. Resolvers may change the state, of which nothing else is known
here. -/
structure Executor (σ : Type) where
  /-- the types -/
  schema : Schema
  /-- the resolvers -/
  resolvers : ResolverTable σ

namespace Executor

variable {σ : Type}

/-- A field in an answer: the type it belongs to, its name and its place in the document. It is what
failures are about. -/
structure Site where
  /-- the name of the type -/
  type : String
  /-- the name of the field -/
  field : String
  /-- the place of the field in the document -/
  position : Position

def completeItems (complete : Nat → Json → Fiber σ Completion) :
    Nat → List Json → List (Fiber σ Completion)
  | _, [] => []
  | index, item :: rest => complete index item :: completeItems complete (index + 1) rest

/-- Shapes a value as its type says. Null and values of another shape fail here, and every level of
the type is a place where a failure may stop. What is selected of an object, given the name of its
type, is a parameter, so that the recursion is on the type alone. -/
def complete (schema : Schema) (site : Site) (select : String → Json → Path → Fiber σ Completion) :
    TypeRef → Json → Path → Fiber σ Completion
  | type, .null, path =>
    if type.nullable then .done (.value .null)
    else .done (.failed ⟨.null site.type site.field, site.position, path⟩)
  | .list item nullable, value, path =>
    match value with
    | .array items =>
      (Fiber.all (completeItems
        (fun index item' => complete schema site select item item' (path ++ [.index index]))
        0 items)).map
        fun completions => (Completion.list completions).absorb nullable
    | other =>
      .done ((Completion.failed
        ⟨.notList site.type site.field other.kind, site.position, path⟩).absorb nullable)
  | .named name nullable, value, path =>
    if schema.isLeaf name then .done (.value value)
    else
      match value with
      | .object _ => (select name value path).map (·.absorb nullable)
      | other =>
        .done ((Completion.failed
          ⟨.notObject name site.type site.field other.kind, site.position, path⟩).absorb nullable)

mutual

/-- The fiber that resolves a field of an object and completes its value. The resolver is asked in
the first step; what it changes is in the state before any other field is asked for. For the name of
a type, no resolver is asked. -/
def field (executor : Executor σ) (type : String) (parent : Json) (path : Path) :
    PlannedField → Fiber σ Completion
  | ⟨alias?, name, typeRef, arguments, fields, position⟩ =>
    if name = PlannedField.typename then .done (.value (.string type))
    else
      let here := path ++ [.field (alias?.getD name)]
      .read fun state =>
        let (resolution, state) := executor.resolvers.resolve type name parent arguments state
        .write state <| resolution.fiber.bind fun outcome =>
          match outcome with
          | .ok value =>
            complete executor.schema ⟨type, name, position⟩
              (fun typeName object path =>
                (Fiber.all (executor.fields typeName object path fields)).map
                  (Completion.object (fields.map (·.output))))
              typeRef value here
          | .error fault =>
            .done ((Completion.failed ⟨.fault fault, position, here⟩).absorb typeRef.nullable)

def fields (executor : Executor σ) (type : String) (parent : Json) (path : Path) :
    List PlannedField → List (Fiber σ Completion)
  | [] => []
  | first :: rest => executor.field type parent path first :: executor.fields type parent path rest

end

/-- The fiber that executes a plan, starting from an object without members. The fields of a
mutation are taken one after the other, those of a query in turns; the errors are in the order of
the fields in either case. -/
def execute (executor : Executor σ) (plan : Plan) : Fiber σ Response :=
  let root := (executor.schema.root? plan.kind).getD ""
  let fibers := executor.fields root (.object []) [] plan.fields
  let completions := match plan.kind with
    | .mutation => Fiber.sequence fibers
    | _ => Fiber.all fibers
  completions.map fun completions =>
    let completion := Completion.object (plan.fields.map (·.output)) completions
    ⟨some (completion.value?.getD .null), completion.failures.map .ofFailure⟩

end Executor

end FeedGraph
