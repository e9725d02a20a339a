import FeedGraph.Proofs.Plan.Bindings
import FeedGraph.Proofs.Plan.Collection
import FeedGraph.Proofs.Plan.Readings
import FeedGraph.Proofs.Plan.Regrouping
import FeedGraph.Proofs.Schema.Closure

/-!
# Faults: what each part of planning is refused for

Collecting calls two other parts, coercion and merging. Whatever they are given, coercion is refused
for what the values of one of the arguments may be refused for (`Coercion.faults_coerceAll`), which
is always about arguments, and merging for conflicts (`PlannedField.faults_merge`). Before it is
called, an operation is chosen, and its root and its variables are looked up, which are refused for
reasons of their own (`Rejection.AboutOperation`). So a refusal of another kind is made by the
collector itself, at a selection of the document.

`Faults kind x` says that if `x` is refused, then for a reason of a kind. A chain of steps has the
faults of its steps.
-/

namespace FeedGraph

namespace Rejection

/-- The reasons that are about arguments. They are those that coercion can give. -/
def AboutArguments : Rejection → Prop
  | .variableNotFound .. | .missingArgument .. | .strayArguments .. | .mismatch ..
  | .endlessDefault .. => True
  | _ => False

/-- The reasons that are about fields with one output name, which are those that merging can
give. -/
def AboutOutputs : Rejection → Prop
  | .conflict .. => True
  | _ => False

/-- The reasons for which an operation is refused before its selections are looked at: it cannot be
chosen, has no root, or has a variable without a value. -/
def AboutOperation : Rejection → Prop
  | .noOperation | .operationNameRequired | .unknownOperation .. | .subscription ..
  | .missingRoot .. | .variableNotFound .. => True
  | _ => False

end Rejection

/-- If something is refused, then for a reason of a kind. Nothing is said of what is accepted. -/
def Faults {α : Type} (kind : Rejection → Prop) (x : Except Rejection α) : Prop :=
  ∀ rejection, x = .error rejection → kind rejection

namespace Faults

variable {α β : Type} {kind kind' : Rejection → Prop}

theorem ok (a : α) : Faults kind (.ok a : Except Rejection α) := by
  rintro rejection ⟨⟩

theorem error {rejection : Rejection} (h : kind rejection) :
    Faults kind (.error rejection : Except Rejection α) := by
  rintro _ ⟨⟩
  exact h

theorem mono {x : Except Rejection α} (h : Faults kind x)
    (himp : ∀ rejection, kind rejection → kind' rejection) : Faults kind' x :=
  fun rejection hx => himp rejection (h rejection hx)

/-- A chain of steps has the faults of its steps; the second one need only be looked at for results
that the first can have. -/
theorem bind {x : Except Rejection α} {f : α → Except Rejection β} (h : Faults kind x)
    (hnext : ∀ a, x = .ok a → Faults kind (f a)) : Faults kind (x >>= f) := by
  cases x with
  | error rejection =>
    rintro _ ⟨⟩
    exact h rejection rfl
  | ok a => exact hnext a rfl

theorem map {x : Except Rejection α} (f : α → β) (h : Faults kind x) : Faults kind (f <$> x) := by
  rw [map_eq_pure_bind]
  exact h.bind fun a _ => ok (f a)

theorem mapM {f : α → Except Rejection β} {xs : List α} (h : ∀ x ∈ xs, Faults kind (f x)) :
    Faults kind (xs.mapM f) := by
  induction xs with
  | nil => exact ok []
  | cons x rest ih =>
    obtain ⟨hx, hrest⟩ := List.forall_mem_cons.mp h
    rw [List.mapM_cons]
    exact hx.bind fun y _ => (ih hrest).bind fun ys _ => ok (y :: ys)

end Faults

namespace Coercion

variable {schema : Schema} {reader : DefaultReader} {place : Position}
  {kind : String → Rejection → Prop}

/-! ## What a literal may be refused for -/

/-- A literal is of the kind that a type takes: the right scalar, one of the names of an
enumeration, or an object, whatever its members are. Whether the members are right is a matter of
their own types. -/
def Takes (definition : TypeDef) (literal : Literal) : Prop :=
  match definition.kind with
  | .scalar => Schema.isBuiltin definition.name = true →
    (coerceBuiltin definition.name literal).isSome = true
  | .enumeration values => ∃ value ∈ values, literal = .enumeration value
  | .input _ => ∃ members, literal = .object members
  | .object _ | .interface _ | .union _ => False

/-- What a kind of reasons has to include so that `faultsIn_coerce` and the like can be shown for it:
for each type, what is missing or too much, a literal of a wrong kind, and what a field inside of it
may be refused for. The kinds are those of the values of a type, so that they can name the type that
is reached inside. -/
structure Refusals (schema : Schema) (kind : String → Rejection → Prop) : Prop where
  variableNotFound : ∀ type name place, kind type (.variableNotFound name place)
  missingArgument : ∀ type name place, kind type (.missingArgument name place)
  strayArguments : ∀ type names owner place, kind type (.strayArguments names owner place)
  endlessDefault : ∀ type argument place, kind type (.endlessDefault argument place)
  /-- if the type is defined, it takes no literals of the kind -/
  mismatch : ∀ type argument literal place,
    (∀ definition, schema.type? type = some definition → ¬ Takes definition literal) →
      kind type (.mismatch argument type literal.kind place)
  /-- objects are refused for their fields -/
  inner : ∀ outer inner rejection, schema.Holds outer inner →
    kind inner rejection → kind outer rejection

/-- A reading that is refused at a type for what values of it may be refused for. -/
def Reading.FaultsIn (kind : String → Rejection → Prop) (reading : Reading) : Prop :=
  ∀ type name position, Faults (kind type.underlying) (reading type name position)

def DefaultReader.FaultsIn (kind : String → Rejection → Prop) (reader : DefaultReader) : Prop :=
  ∀ definition default position,
    Faults (kind definition.type.underlying) (reader definition default position)

/-! ## Coercion -/

theorem faults_coerceArgument (hkind : Refusals schema kind) (hreader : reader.FaultsIn kind)
    {definition : InputDef} {supplied? : Option Supplied}
    (h : ∀ supplied, supplied? = some supplied → supplied.reading.FaultsIn kind) :
    Faults (kind definition.type.underlying)
      (coerceArgument reader place definition supplied?) := by
  have hgiven : Faults (kind definition.type.underlying) (given? definition supplied?) := by
    rw [given?.eq_def]
    split
    · split
      · exact .ok none
      · exact .error (hkind.variableNotFound _ _ _)
    · exact .ok supplied?
  refine hgiven.bind fun given hok => ?_
  have hsame : ∀ supplied, given = some supplied → supplied? = some supplied := by
    rintro supplied rfl
    rw [given?.eq_def] at hok
    split at hok
    · split at hok <;> cases hok
    · exact Except.ok.inj hok
  cases given with
  | some supplied => exact .map some (h supplied (hsame supplied rfl) _ _ _)
  | none =>
    cases definition.default? with
    | some default => exact .map some (hreader definition default.1 default.2)
    | none =>
      dsimp only
      split
      · exact .ok none
      · exact .error (hkind.missingArgument _ _ _)

section

variable {definitions : List InputDef} {kind' : Rejection → Prop}

theorem faults_coerceDeclared (hkind : Refusals schema kind) (hreader : reader.FaultsIn kind)
    (hkind' : ∀ definition ∈ definitions, ∀ rejection,
      kind definition.type.underlying rejection → kind' rejection)
    {supplied : Members Supplied} {values : Members Value}
    (h : ∀ pair ∈ supplied, pair.2.reading.FaultsIn kind) :
    Faults kind' (coerceDeclared reader place definitions supplied values) := by
  induction definitions generalizing supplied values with
  | nil => exact .ok (values, supplied)
  | cons definition rest ih =>
    obtain ⟨hfirst, hrest⟩ := List.forall_mem_cons.mp hkind'
    have hargument : Faults kind'
        (coerceArgument reader place definition (Members.get? supplied definition.name)) :=
      (faults_coerceArgument hkind hreader fun _ hgiven => h _ (Members.mem_of_get? hgiven)).mono
        hfirst
    exact hargument.bind fun value? _ => ih hrest fun pair hpair =>
      h pair (Members.mem_of_mem_erase hpair)

/-- Arguments are refused for one of them, or for one that is not declared. -/
theorem faults_coerceArguments (hkind : Refusals schema kind) (hreader : reader.FaultsIn kind)
    (hkind' : ∀ definition ∈ definitions, ∀ rejection,
      kind definition.type.underlying rejection → kind' rejection)
    {pairs : List (String × Supplied)} {owner : String}
    (hstray : ∀ names, kind' (.strayArguments names owner place))
    (h : ∀ pair ∈ pairs, pair.2.reading.FaultsIn kind) :
    Faults kind' (coerceArguments reader place definitions pairs owner) := by
  have hdeclared : Faults kind' (coerceDeclared reader place definitions (kept pairs) []) :=
    faults_coerceDeclared hkind hreader hkind' fun pair hpair => h pair (mem_of_mem_kept hpair).1
  refine hdeclared.bind fun read _ => ?_
  dsimp only
  split
  · exact .ok read.1
  · exact .error (hstray _)

end

/-- The cases are the kinds of the named type, as in `coerceNamed`; the members of an input object
are refused as the arguments of its fields. -/
theorem faults_coerceNamed (hkind : Refusals schema kind) (hreader : reader.FaultsIn kind)
    {literal : Literal} {readings : List (String × (Literal × Reading))}
    (h : ∀ member ∈ readings, Reading.FaultsIn kind member.2.2) (name argument : String)
    (position : Position) :
    Faults (kind name) (coerceNamed schema reader place literal readings name argument position) := by
  have hmismatch : (∀ definition, schema.type? name = some definition → ¬ Takes definition literal) →
      Faults (kind name) (.error (.mismatch argument name literal.kind position) :
        Except Rejection Value) := fun hnot => .error (hkind.mismatch _ _ _ _ hnot)
  rw [coerceNamed.eq_def]
  cases htype : schema.type? name with
  | none => exact hmismatch fun _ hdefinition => by rw [htype] at hdefinition; cases hdefinition
  | some definition =>
    have hnot : ¬ Takes definition literal →
        ∀ other, schema.type? name = some other → ¬ Takes other literal := by
      rintro hnot other hother
      rwa [← Option.some.inj (htype.symm.trans hother)]
    obtain rfl := Schema.name_of_type? htype
    dsimp only
    split
    · next hscalar =>
      split
      · next hbuiltin =>
        split
        · exact .ok _
        · next hnone =>
          exact hmismatch (hnot (by simp [Takes, hscalar, hbuiltin, hnone]))
      · rw [coerceOpaque.eq_def]
        split
        · exact .ok _
        · exact .error (hkind.variableNotFound _ _ _)
    · next henumeration =>
      split
      · exact .ok _
      · next hvalue => exact hmismatch (hnot (by simpa [Takes, henumeration] using hvalue))
    · next fields members hinput =>
      refine .map Value.object (faults_coerceArguments hkind hreader ?_ ?_ fun pair hpair => ?_)
      · exact fun field hfield rejection =>
          hkind.inner _ _ _ (Schema.holds_of_field htype hinput hfield)
      · exact fun names => hkind.strayArguments _ names _ _
      · obtain ⟨member, hmember, rfl⟩ := List.mem_map.mp hpair
        exact h member hmember
    · next hscalar henumeration hinput =>
      refine hmismatch (hnot ?_)
      rw [Takes]
      cases hk : definition.kind with
      | scalar => exact absurd hk hscalar
      | enumeration values =>
        rintro ⟨value, -, rfl⟩
        exact henumeration values value hk rfl
      | input fields =>
        rintro ⟨members, rfl⟩
        exact hinput fields members hk rfl
      | _ => exact id

theorem faults_wrapped {inner : String → Except Rejection Value}
    (h : ∀ name, Faults (kind name) (inner name)) (type : TypeRef) :
    Faults (kind type.underlying) (wrapped inner type) := by
  induction type with
  | named name nullable => exact h name
  | list item nullable ih => exact ih.map fun value => Value.list [value]

/-- The induction is on the literal. A list passes the kind of its items on, since it has the same
underlying type. -/
theorem faultsIn_coerce (hkind : Refusals schema kind) (hreader : reader.FaultsIn kind)
    (literal : Literal) : Reading.FaultsIn kind (coerce schema reader place literal) := by
  intro type argument position
  induction literal using Literal.structural generalizing type argument position with
  | unbound name =>
    simp only [coerce]
    split
    · exact .ok Value.null
    · exact .error (hkind.variableNotFound _ _ _)
  | null =>
    simp only [coerce]
    split
    · exact .ok Value.null
    · exact .error (hkind.missingArgument _ _ _)
  | list items ih =>
    cases type with
    | named name nullable =>
      exact faults_coerceNamed hkind hreader (fun _ hmem => absurd hmem List.not_mem_nil) _ _ _
    | list item nullable =>
      simp only [coerce, coerceItems_eq_map, List.mapM_map]
      exact .map Value.list (.mapM fun literal hmem => ih literal hmem item argument position)
  | object members ih =>
    simp only [coerce, coerceMembers_eq_map]
    refine faults_wrapped (fun name =>
      faults_coerceNamed hkind hreader (fun member hmember => ?_) _ _ _) type
    obtain ⟨given, hgiven, rfl⟩ := List.mem_map.mp hmember
    exact ih given hgiven
  | _ =>
    simp only [coerce]
    exact faults_wrapped (fun name =>
      faults_coerceNamed hkind hreader (fun _ hmem => absurd hmem List.not_mem_nil) _ _ _) type

theorem faultsIn_readDefault (hkind : Refusals schema kind) (steps : Nat) :
    DefaultReader.FaultsIn kind (readDefault schema place steps) := by
  induction steps with
  | zero => exact fun _ _ _ => .error (hkind.endlessDefault _ _ _)
  | succ steps ih => exact fun _ default _ => faultsIn_coerce hkind ih default.toLiteral _ _ _

/-- The arguments of a field are refused for what the values of one of them may be refused for, or
for one that is not declared. Different kinds of reasons give different theorems from this one: that
it is about arguments at all, and where a wrong type comes from. -/
theorem faults_coerceAll (hkind : Refusals schema kind) {kind' : Rejection → Prop}
    {definitions : List InputDef} {field : String}
    (hkind' : ∀ definition ∈ definitions, ∀ rejection,
      kind definition.type.underlying rejection → kind' rejection)
    (hstray : ∀ names, kind' (.strayArguments names field place)) (bindings : Members Value)
    (arguments : List Argument) :
    Faults kind' (coerceAll schema bindings field place definitions arguments) := by
  refine faults_coerceArguments hkind (faultsIn_readDefault hkind _) hkind' hstray
    fun pair hpair => ?_
  obtain ⟨argument, -, rfl⟩ := List.mem_map.mp hpair
  exact faultsIn_coerce hkind (faultsIn_readDefault hkind _) _

/-- The instance of `faults_coerceAll` for the reasons that are about arguments, whatever the
type. -/
theorem aboutArguments_coerceAll (bindings : Members Value) (field : String)
    (definitions : List InputDef) (arguments : List Argument) :
    Faults Rejection.AboutArguments
      (coerceAll schema bindings field place definitions arguments) := by
  have hkind : Refusals schema fun _ => Rejection.AboutArguments := by
    constructor <;> intros
    case inner => assumption
    all_goals trivial
  exact faults_coerceAll hkind (fun _ _ _ => id) (fun _ => trivial) bindings arguments

end Coercion

/-! ## Merging -/

namespace PlannedField

open Rejection (AboutOutputs)

theorem faults_insertField (field : PlannedField) (fields : List PlannedField) :
    Faults AboutOutputs (insertField field fields) := by
  induction fields with
  | nil => exact .ok [field]
  | cons first rest ih =>
    rw [insertField]
    split
    · split
      · exact .error trivial
      · exact .ok _
    · exact ih.map (first :: ·)

theorem faults_mergeLevelInto (into fields : List PlannedField) :
    Faults AboutOutputs (mergeLevelInto into fields) := by
  induction fields generalizing into with
  | nil => exact .ok into
  | cons field rest ih =>
    rw [mergeLevelInto]
    exact (faults_insertField field into).bind fun next _ => ih next

/-- Merging is refused for conflicts, on whichever level. -/
theorem faults_merge (fields : List PlannedField) : Faults AboutOutputs (merge fields) := by
  induction fields using merge.induct with
  | case1 fields rejection hlevel =>
    rw [merge_eq, hlevel]
    exact .error (faults_mergeLevelInto [] fields rejection hlevel)
  | case2 fields level hlevel ih =>
    rw [merge_eq, hlevel]
    exact .mapM fun field hfield => (ih field hfield).bind fun below _ => .ok _

end PlannedField

/-! ## What comes before the selections -/

theorem Operation.faults_bindingsFrom (supplied : Members Json)
    (declared : List VariableDefinition) (bindings : Members Value) :
    Faults Rejection.AboutOperation (bindingsFrom supplied declared bindings) := by
  induction declared generalizing bindings with
  | nil => exact .ok bindings
  | cons definition rest ih =>
    rw [bindingsFrom_cons]
    cases definition.given? supplied with
    | some value => exact ih _
    | none =>
      dsimp only
      split
      · exact ih bindings
      · exact .error trivial

theorem Document.faults_choose (document : Document) (operationName? : Option String) :
    Faults Rejection.AboutOperation (document.choose operationName?) := by
  rw [Document.choose.eq_def]
  split
  · exact .ok _
  · exact .error trivial
  · exact .ok _
  · exact .error trivial
  · split
    · exact .ok _
    · exact .error trivial

theorem Plan.faults_rootOf (schema : Schema) (operation : Operation) :
    Faults Rejection.AboutOperation (rootOf schema operation) := by
  rw [rootOf]
  split
  · exact .error trivial
  · split
    · exact .ok _
    · exact .error trivial

end FeedGraph
