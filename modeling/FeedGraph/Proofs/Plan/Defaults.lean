import Mathlib.Order.Monotone.Basic
import FeedGraph.Schema.Reader
import FeedGraph.Proofs.Plan.Conformance
import FeedGraph.Proofs.Plan.Readings

/-!
# Defaults: how far they have to be followed

A default may need other defaults, and following them may never end. Coercion follows them a limited
number of times. The main statement, `Coercion.coerceAll_accepts`, says that the limit is never
felt: the arguments that are accepted are those that fill their declarations by the rules of
`Coerces`, which know of no limit, and what comes out conforms to the declared types.

The defaults that are read within so many steps are the more the more steps there are, and those
that are read with one step more depend on those that are read without it. So if one step adds none,
no further step does, and there are only so many that can be added before.
-/

namespace FeedGraph

namespace Coercion

variable {schema : Schema} {place : Position}

/-- What a default is read as within so many steps. -/
def ReadsWithin (schema : Schema) (place : Position) (steps : Nat) : InputDef → Value → Prop :=
  Reads (readDefault schema place steps)

/-- One step more reads what the literal stands for that the default is written as, where the
defaults that this needs are read within the steps there were. So each step is an application of
`CoercesWith` to the step before, and the steps approach `DefaultCoerces` from below. -/
theorem readsWithin_succ_iff (hschema : schema.InputsDeclaredOnce) {steps : Nat}
    {definition : InputDef} {value : Value} :
    ReadsWithin schema place (steps + 1) definition value ↔
      ∃ default position, definition.default? = some (default, position) ∧
        CoercesWith schema (ReadsWithin schema place steps) definition.type default.toLiteral
          value := by
  simp only [ReadsWithin, Reads, readDefault,
    coerce_eq_ok_iff hschema (Value.variableNames_toLiteral _)]

theorem ReadsWithin.unique {steps : Nat} {definition : InputDef} {first second : Value}
    (h₁ : ReadsWithin schema place steps definition first)
    (h₂ : ReadsWithin schema place steps definition second) : first = second := by
  obtain ⟨default, position, hdefault, h₁⟩ := h₁
  obtain ⟨default', position', hdefault', h₂⟩ := h₂
  rw [hdefault] at hdefault'
  obtain ⟨rfl, rfl⟩ := Prod.mk.inj (Option.some.inj hdefault')
  exact Except.ok.inj (h₁.symm.trans h₂)

/-- More steps lose nothing: by induction on them, as `CoercesWith` is monotone in what defaults
come to. -/
theorem ReadsWithin.mono (hschema : schema.InputsDeclaredOnce) {steps more : Nat}
    (hle : steps ≤ more) {definition : InputDef} {value : Value}
    (h : ReadsWithin schema place steps definition value) :
    ReadsWithin schema place more definition value := by
  induction steps generalizing more definition value with
  | zero =>
    obtain ⟨_, _, -, h⟩ := h
    cases h
  | succ steps ih =>
    obtain ⟨more, rfl⟩ := Nat.exists_eq_succ_of_ne_zero (Nat.ne_zero_of_lt hle)
    obtain ⟨default, position, hdefault, hcoerces⟩ := (readsWithin_succ_iff hschema).mp h
    exact (readsWithin_succ_iff hschema).mpr ⟨default, position, hdefault,
      hcoerces.imp fun _ _ _ hreads => ih (Nat.le_of_succ_le_succ hle) hreads⟩

/-- What a default is read as is what it comes to; reading never goes beyond the rules. -/
theorem ReadsWithin.coerces (hschema : schema.InputsDeclaredOnce) {steps : Nat}
    {definition : InputDef} {value : Value} (h : ReadsWithin schema place steps definition value) :
    DefaultCoerces schema definition value := by
  induction steps generalizing definition value with
  | zero =>
    obtain ⟨_, _, -, h⟩ := h
    cases h
  | succ steps ih =>
    obtain ⟨default, position, hdefault, hcoerces⟩ := (readsWithin_succ_iff hschema).mp h
    exact .of_default hdefault (hcoerces.imp fun _ _ _ hreads => ih hreads)

/-! ## When no step adds anything -/

/-- Whether a default is read within so many steps. -/
def readable (schema : Schema) (place : Position) (steps : Nat) (definition : InputDef) : Bool :=
  match definition.default? with
  | some (default, position) =>
    (readDefault schema place steps definition default position).toOption.isSome
  | none => false

theorem readable_iff {steps : Nat} {definition : InputDef} :
    readable schema place steps definition = true ↔
      ∃ value, ReadsWithin schema place steps definition value := by
  simp only [readable, ReadsWithin, Reads]
  cases hdefault : definition.default? with
  | none => simp
  | some default =>
    obtain ⟨default, position⟩ := default
    cases hread : readDefault schema place steps definition default position <;>
      simp [hread, Except.toOption]

/-- How many of the input fields' defaults are read within so many steps. It grows with the steps
and is at most `defaultCount`, which is what bounds the steps that add something. -/
def readableCount (schema : Schema) (place : Position) (steps : Nat) : Nat :=
  schema.defaulted.countP (readable schema place steps)

theorem defaultCount_eq (schema : Schema) : defaultCount schema = schema.defaulted.length := by
  rw [defaultCount, Schema.defaulted]
  congr 2
  funext definition
  cases definition.kind <;> rfl

theorem readableCount_le (schema : Schema) (place : Position) (steps : Nat) :
    readableCount schema place steps ≤ defaultCount schema := by
  rw [defaultCount_eq]
  exact List.countP_le_length

theorem readableCount_mono (hschema : schema.InputsDeclaredOnce) (place : Position) :
    Monotone (readableCount schema place) := by
  intro steps more hle
  refine List.countP_mono_left fun definition _ h => ?_
  obtain ⟨value, hreads⟩ := readable_iff.mp h
  exact readable_iff.mpr ⟨value, hreads.mono hschema hle⟩

/-- Where no more defaults are counted, none is read that was not read before: those read within
fewer steps are a sublist of those read within more, and of the same length. -/
theorem ReadsWithin.of_count_eq (hschema : schema.InputsDeclaredOnce) {steps more : Nat}
    (hle : steps ≤ more)
    (hcount : readableCount schema place steps = readableCount schema place more)
    {definition : InputDef} (hmem : definition ∈ schema.defaulted) {value : Value}
    (h : ReadsWithin schema place more definition value) :
    ReadsWithin schema place steps definition value := by
  have hsublist : (schema.defaulted.filter (readable schema place steps)).Sublist
      (schema.defaulted.filter (readable schema place more)) := by
    refine List.monotone_filter_right _ fun definition hreadable => ?_
    obtain ⟨value, hreads⟩ := readable_iff.mp hreadable
    exact readable_iff.mpr ⟨value, hreads.mono hschema hle⟩
  -- a part that is as long as the whole is the whole
  have heq : schema.defaulted.filter (readable schema place steps) =
      schema.defaulted.filter (readable schema place more) := by
    refine hsublist.eq_of_length ?_
    rw [← List.countP_eq_length_filter, ← List.countP_eq_length_filter]
    exact hcount
  have hmore : definition ∈ schema.defaulted.filter (readable schema place more) :=
    List.mem_filter.mpr ⟨hmem, readable_iff.mpr ⟨value, h⟩⟩
  rw [← heq] at hmore
  obtain ⟨value', hreads⟩ := readable_iff.mp (List.mem_filter.mp hmore).2
  rwa [h.unique (hreads.mono hschema hle)]

/-- If one step adds nothing, the next one does not either: what it reads depends on what is read
without it. -/
theorem readableCount_succ_eq (hschema : schema.InputsDeclaredOnce) {steps : Nat}
    (hcount : readableCount schema place steps = readableCount schema place (steps + 1)) :
    readableCount schema place (steps + 1) = readableCount schema place (steps + 2) := by
  refine Nat.le_antisymm (readableCount_mono hschema place (Nat.le_succ _)) ?_
  refine List.countP_mono_left fun definition _ h => ?_
  obtain ⟨value, hreads⟩ := readable_iff.mp h
  obtain ⟨default, position, hdefault, hcoerces⟩ := (readsWithin_succ_iff hschema).mp hreads
  refine readable_iff.mpr ⟨value, (readsWithin_succ_iff hschema).mpr
    ⟨default, position, hdefault, hcoerces.imp fun field hmem _ hreads => ?_⟩⟩
  exact hreads.of_count_eq hschema (Nat.le_succ _) hcount hmem

/-- No steps beyond the number of input fields with defaults are needed for these. Either each of
the steps so far has added one, and then all are read, or one of them has added none, and then
neither does any other. -/
theorem ReadsWithin.of_defaulted (hschema : schema.InputsDeclaredOnce) {steps : Nat}
    {definition : InputDef} (hmem : definition ∈ schema.defaulted) {value : Value}
    (h : ReadsWithin schema place steps definition value) :
    ReadsWithin schema place (defaultCount schema) definition value := by
  rcases Nat.le_total steps (defaultCount schema) with hle | hle
  · exact h.mono hschema hle
  · -- the count stops growing for good once it does not grow, and cannot grow more often than there
    -- are defaults
    have hcount : readableCount schema place steps =
        readableCount schema place (defaultCount schema) :=
      Nat.stabilises_of_monotone (readableCount_mono hschema place)
        (readableCount_le schema place) (fun _ => readableCount_succ_eq hschema) hle
    exact h.of_count_eq hschema hle hcount.symm hmem

/-- One step more is enough for all defaults, those of arguments included, which need the defaults
of input fields at most. -/
theorem readsWithin_iff_coerces (hschema : schema.InputsDeclaredOnce) {definition : InputDef}
    {value : Value} : ReadsWithin schema place (defaultCount schema + 1) definition value ↔
      DefaultCoerces schema definition value := by
  refine ⟨fun h => h.coerces hschema, fun h => ?_⟩
  -- what is read within the limit fits the rules, and less than all values cannot
  refine h.least fun definition default position value hdefault hcoerces => ?_
  exact (readsWithin_succ_iff hschema).mpr ⟨default, position, hdefault,
    hcoerces.imp fun _ hmem _ hreads => hreads.of_defaulted hschema hmem⟩

/-! ## Literals and arguments -/

/-- The bound on steps is not felt: the reader that coercion uses reads just what `DefaultCoerces`
says. -/
theorem reads_eq_defaultCoerces (hschema : schema.InputsDeclaredOnce) (place : Position) :
    Reads (readDefault schema place (defaultCount schema + 1)) = DefaultCoerces schema := by
  funext definition value
  exact propext (readsWithin_iff_coerces hschema)

theorem coerce_eq_ok_iff_coerces (hschema : schema.InputsDeclaredOnce) {literal : Literal}
    (hvariables : literal.variableNames = []) {type : TypeRef} {name : String} {position : Position}
    {value : Value} :
    coerce schema (readDefault schema place (defaultCount schema + 1)) place literal type name
        position = .ok value ↔ Coerces schema type literal value := by
  rw [Coerces, ← reads_eq_defaultCoerces hschema place]
  exact coerce_eq_ok_iff hschema hvariables

/-- The literals of some arguments, with the values of variables in their places. -/
def boundLiterals (bindings : Members Value) (arguments : List Argument) :
    List (String × Literal) :=
  arguments.map fun argument => (argument.name, argument.value.bind bindings)

/-- The arguments that are accepted are those that fill their declarations, and what comes out are
the values that they fill them with. It is an equivalence: nothing is accepted that should not be,
and nothing is refused that should be accepted. -/
theorem coerceAll_eq_ok_iff (hschema : schema.InputsDeclaredOnce) {bindings : Members Value}
    {definitions : List InputDef} (hdeclared : DeclaredOnce definitions)
    {arguments : List Argument} (hbound : ∀ argument ∈ arguments, argument.value.Bound bindings)
    {field : String} {values : Members Value} :
    coerceAll schema bindings field place definitions arguments = .ok values ↔
      ∃ result, ArgumentsCoerce schema definitions (boundLiterals bindings arguments) result ∧
        values = filled definitions (boundLiterals bindings arguments) result := by
  let reader := readDefault schema place (defaultCount schema + 1)
  let pairs : List (String × Supplied) := arguments.map fun argument =>
    (argument.name, ⟨argument.value.bind bindings, argument.position,
      coerce schema reader place (argument.value.bind bindings)⟩)
  have hliterals : literals pairs = boundLiterals bindings arguments := by
    rw [literals, List.map_map]
    rfl
  have hread : ∀ pair ∈ pairs, ∀ definition ∈ definitions,
      pair.2.ReadBy definition (Coerces schema definition.type) := by
    intro pair hpair definition _
    obtain ⟨argument, hmem, rfl⟩ := List.mem_map.mp hpair
    have hnone := Literal.variableNames_bind (hbound argument hmem)
    exact ⟨Literal.ne_variable hnone, fun value => coerce_eq_ok_iff_coerces hschema hnone⟩
  rw [← hliterals, ArgumentsCoerce, ← reads_eq_defaultCoerces hschema place]
  exact coerceArguments_eq_ok_iff hdeclared hread

/-- Arguments without unbound variables are accepted exactly if they fill their declarations, and
then they conform to them. Each of their literals is read as a value of a type, whichever it is,
exactly if it stands for this value, and then the value conforms to the type. -/
theorem coerceAll_accepts {schema : Schema} (hschema : schema.InputsDeclaredOnce)
    {bindings : Members Value} {definitions : List InputDef} (hdeclared : DeclaredOnce definitions)
    {arguments : List Argument} (hbound : ∀ argument ∈ arguments, argument.value.Bound bindings)
    (field : String) (place : Position) (values : Members Value) :
    (coerceAll schema bindings field place definitions arguments = .ok values ↔
      ∃ result, ArgumentsCoerce schema definitions (boundLiterals bindings arguments) result ∧
        values = filled definitions (boundLiterals bindings arguments) result) ∧
    (coerceAll schema bindings field place definitions arguments = .ok values →
      ArgumentsTyped schema definitions values) ∧
    ∀ argument ∈ arguments, ∀ type name position value,
      (coerce schema (readDefault schema place (defaultCount schema + 1)) place
          (argument.value.bind bindings) type name position = .ok value ↔
        Coerces schema type (argument.value.bind bindings) value) ∧
      (Coerces schema type (argument.value.bind bindings) value → Conforms schema type value) := by
  refine ⟨coerceAll_eq_ok_iff hschema hdeclared hbound, argumentsTyped_coerceAll, ?_⟩
  intro argument hmem type name position value
  have hread : coerce schema (readDefault schema place (defaultCount schema + 1)) place
        (argument.value.bind bindings) type name position = .ok value ↔
      Coerces schema type (argument.value.bind bindings) value :=
    coerce_eq_ok_iff_coerces hschema (Literal.variableNames_bind (hbound argument hmem))
  exact ⟨hread, fun h =>
    faithful_coerce (faithfulReader_readDefault _) _ _ _ _ _ (hread.mpr h)⟩

end Coercion

/-! ## Searches -/

namespace Searches

open Coercion

/-- A search has a filter. Its page is a default that needs the default of another field, and the
order of what is found is one of two. -/
def schema : Schema :=
  { Schema.initial with
    types := Schema.initial.types ++
      [⟨"Date", none, .scalar⟩, ⟨"Order", none, .enumeration ["OLDEST", "NEWEST"]⟩,
        ⟨"Page", none, .input
          [⟨"size", .named "Int" false, some (.number (.int64 20), ⟨9, 20⟩)⟩,
            ⟨"behind", .list (.named "ID" false) true, none⟩]⟩,
        ⟨"Filter", none, .input
          [⟨"ids", .list (.list (.named "ID" false) false) false, none⟩,
            ⟨"page", .named "Page" false, some (.object [], ⟨14, 15⟩)⟩,
            ⟨"order", .named "Order" true, some (.enumeration "NEWEST", ⟨15, 18⟩)⟩,
            ⟨"since", .named "Date" true, none⟩,
            ⟨"text", .named "String" true, none⟩]⟩] }

def definitions : List InputDef :=
  [⟨"filter", .named "Filter" false, none⟩,
    ⟨"limit", .named "Float" false, some (.number (.int64 50), ⟨20, 30⟩)⟩]

/-- The ids come from a variable that is a number and no list; the filter carries the name of its
type, which is not counted. -/
def filter : Argument :=
  ⟨"filter", .object
    [("__typename", .string "Filter"), ("since", .list [.variable "year", .null]),
      ("ids", .variable "one"), ("order", .null)], ⟨1, 10⟩⟩

def bindings : Members Value :=
  [("one", .number (.int64 7)), ("year", .number (.int64 1999))]

def filterValue : Value :=
  .object
    [("ids", .list [.list [.string "7"]]), ("page", .object [("size", .number (.int64 20))]),
      ("order", .null), ("since", .list [.number (.int64 1999), .null])]

def values : Members Value := [("filter", filterValue), ("limit", .number (.int64 50))]

theorem coerceAll_values : coerceAll schema bindings "search" ⟨1, 3⟩ definitions [filter] =
    .ok values := by
  rfl

theorem coerce_filter : coerce schema (readDefault schema ⟨1, 3⟩ (defaultCount schema + 1)) ⟨1, 3⟩
    (filter.value.bind bindings) (.named "Filter" false) "filter" ⟨1, 10⟩ = .ok filterValue := by
  rfl

/-- The arguments of the search fill what it declares, and conform to it. -/
theorem accepts_search : schema.InputsDeclaredOnce ∧ DeclaredOnce definitions ∧
    (∀ argument ∈ [filter], argument.value.Bound bindings) ∧
    (∃ result, ArgumentsCoerce schema definitions (boundLiterals bindings [filter]) result ∧
      values = filled definitions (boundLiterals bindings [filter]) result) ∧
    ArgumentsTyped schema definitions values ∧
    Coerces schema (.named "Filter" false) (filter.value.bind bindings) filterValue ∧
    Conforms schema (.named "Filter" false) filterValue :=
  have hschema : schema.InputsDeclaredOnce := by decide
  have hdeclared : DeclaredOnce definitions := by decide
  have hbound : ∀ argument ∈ [filter], argument.value.Bound bindings := by decide
  have haccepts := coerceAll_accepts hschema hdeclared hbound "search" ⟨1, 3⟩ values
  have hfilter := haccepts.2.2 filter List.mem_cons_self (.named "Filter" false) "filter" ⟨1, 10⟩
    filterValue
  have hcoerces := hfilter.1.mp coerce_filter
  ⟨hschema, hdeclared, hbound, haccepts.1.mp coerceAll_values, haccepts.2.1 coerceAll_values,
    hcoerces, hfilter.2 hcoerces⟩

/-- A default that needs itself comes to nothing. -/
example : coerceAll
    ⟨[⟨"Chain", none, .input [⟨"next", .named "Chain" false, some (.object [], ⟨2, 9⟩)⟩]⟩], "", ""⟩
    [] "pull" ⟨1, 3⟩ [⟨"chain", .named "Chain" false, none⟩] [⟨"chain", .object [], ⟨1, 8⟩⟩] =
    .error (.endlessDefault "next" ⟨2, 9⟩) := by
  rfl

end Searches

end FeedGraph
