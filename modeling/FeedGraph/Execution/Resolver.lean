import FeedGraph.Document.Value
import FeedGraph.Execution.Fiber

/-!
# Resolver: where the values of fields come from

A resolver is asked for the value of one field of an object. It answers at once or with a fiber that
the answer has to be waited for; either way it may change the state it is given. A table says which
resolver is asked for which field of which type. A field without one has the value of the member of
its object that has its name.
-/

namespace FeedGraph

/-- Why a resolver has no value, in words for whoever asked. -/
structure Fault where
  /-- the words -/
  message : String
  deriving DecidableEq

/-- What comes of asking for a value. -/
abbrev Outcome : Type := Except Fault Json

/-- The answer of a resolver. -/
inductive Resolution (σ : Type) where
  /-- the outcome is there -/
  | ready (outcome : Outcome)
  /-- the outcome has to be waited for -/
  | deferred (fiber : Fiber σ Outcome)

namespace Resolution

variable {σ : Type}

def fiber : Resolution σ → Fiber σ Outcome
  | .ready outcome => .done outcome
  | .deferred fiber => fiber

end Resolution

/-- A resolver: from an object, the arguments of the field and the state to an answer and the state
it leaves. What is done to the state here is done at once; a deferred answer may read and write it
again, in its own turns. -/
abbrev Resolver (σ : Type) : Type := Json → Members Value → σ → Resolution σ × σ

structure ResolverEntry (σ : Type) where
  /-- the name of the type -/
  type : String
  /-- the name of the field -/
  field : String
  /-- the resolver -/
  resolver : Resolver σ

/-- Which resolver is asked for which field. -/
structure ResolverTable (σ : Type) where
  /-- the entries, the latest first -/
  entries : List (ResolverEntry σ)

/-- What a field has without a resolver: the member of the object that has its name, or null if
there is none. -/
def memberOutcome (field : String) : Json → Outcome
  | .object members => .ok ((Members.get? members field).getD .null)
  | _ => .error ⟨s!"Cannot resolve '{field}': the parent value is not an object"⟩

namespace ResolverTable

variable {σ : Type}

def empty : ResolverTable σ := ⟨[]⟩

/-- Sets the resolver of a field; an earlier one is replaced. -/
def register (table : ResolverTable σ) (type field : String) (resolver : Resolver σ) :
    ResolverTable σ :=
  ⟨⟨type, field, resolver⟩ ::
    table.entries.filter fun entry => !(entry.type == type && entry.field == field)⟩

def get? (table : ResolverTable σ) (type field : String) : Option (Resolver σ) :=
  (table.entries.find? fun entry => entry.type == type && entry.field == field).map (·.resolver)

/-- Asks for the value of a field of an object, by its resolver or by `memberOutcome`. -/
def resolve (table : ResolverTable σ) (type field : String) (parent : Json)
    (arguments : Members Value) (state : σ) : Resolution σ × σ :=
  match table.get? type field with
  | some resolver => resolver parent arguments state
  | none => (.ready (memberOutcome field parent), state)

@[simp] theorem get?_register_self (table : ResolverTable σ) (type field : String)
    (resolver : Resolver σ) :
    (table.register type field resolver).get? type field = some resolver := by
  simp [register, get?]

end ResolverTable

end FeedGraph
