import Mathlib.Data.List.Nodup
import FeedGraph.Proofs.Document.Conversions
import FeedGraph.Proofs.Plan.Termination
import FeedGraph.Proofs.Plan.Supply

/-!
# Stability: values that stand for themselves

A value that a literal was read as can be written as a literal again. The main statement,
`Coercion.coerceAll_stable`, says that this literal is read as the very same value, at the same type
and wherever it stands, and so it is with all arguments of a field.

What reading leaves behind are normal values (`Normal`): lists instead of single items, texts
instead of ids that are numbers, and objects with their fields in the order of the declarations, all
that have a default filled in. Whatever is read is normal (`Coercion.normal_of_coerce`), and normal
values are read as they are (`Coercion.coerce_of_normal`). Nothing of an object has to be filled in
again, with one exception: if a field has the name under which clients send the name of a type back,
what is supplied for it never counts, and its default is read each time. That it is read alike each
time is `Coercion.Extends.coerce`.
-/

namespace FeedGraph

/-! ## Values of literals -/

/-- A value of a scalar that every schema has stands for itself: an id that is a number is read as a
text, and the text as itself. -/
theorem CoercesBuiltin.toLiteral {name : String} {literal : Literal} {value : Value}
    (h : CoercesBuiltin name literal value) : CoercesBuiltin name value.toLiteral value := by
  cases h with
  | @int i hrange hint =>
    -- the value is written as the integer that it was read from
    have hnumber : Value.Number.ofJson (.integer i hrange) = .int64 (Int64.ofInt i) :=
      if_pos (by have := hint.2; omega)
    rw [← hnumber, Value.toLiteral, Value.Number.toJson_ofJson, hnumber]
    exact .int hint
  | float =>
    rw [Value.toLiteral, Value.Number.toJson_ofJson]
    exact .float
  | idInteger => exact .id
  | id => exact .id
  | string => exact .string
  | boolean => exact .boolean

/-! ## Declarations with different names -/

/-- The fields of each input object have different names. It is less than `InputsDeclaredOnce`,
since the name of a type may be among them. -/
def Schema.InputsDistinct (schema : Schema) : Prop :=
  ∀ definition ∈ schema.types, (definition.kind.inputs.map (·.name)).Nodup

instance (schema : Schema) : Decidable schema.InputsDistinct :=
  inferInstanceAs (Decidable (∀ definition ∈ schema.types, _))

theorem Schema.InputsDistinct.fields {schema : Schema} (h : schema.InputsDistinct) {name : String}
    {definition : TypeDef} {fields : List InputDef} (ht : schema.type? name = some definition)
    (hk : definition.kind = .input fields) : (fields.map (·.name)).Nodup := by
  have hinputs := h definition (List.mem_of_find?_eq_some ht)
  rwa [hk] at hinputs

namespace Coercion

variable {definitions : List InputDef} {value? : InputDef → Option Value}

theorem names_provided_sublist :
    (Members.names (provided definitions value?)).Sublist (definitions.map (·.name)) := by
  induction definitions with
  | nil => exact .slnil
  | cons definition rest ih =>
    cases hvalue : value? definition with
    | none =>
      rw [provided, List.filterMap_cons_none (by rw [hvalue]; rfl)]
      exact ih.cons _
    | some value =>
      rw [provided, List.filterMap_cons_some (by rw [hvalue]; rfl)]
      exact ih.cons_cons _

theorem get?_provided (hdistinct : (definitions.map (·.name)).Nodup) {definition : InputDef}
    (hmem : definition ∈ definitions) :
    Members.get? (provided definitions value?) definition.name = value? definition := by
  cases hvalue : value? definition with
  | some value =>
    refine Members.get?_of_mem (hdistinct.sublist names_provided_sublist) ?_
    exact List.mem_filterMap.mpr ⟨definition, hmem, by rw [hvalue]; rfl⟩
  | none =>
    rw [Option.eq_none_iff_forall_not_mem]
    intro value hfound
    obtain ⟨other, hother, hpair⟩ := List.mem_filterMap.mp (Members.mem_of_get? hfound)
    obtain ⟨own, hown, heq⟩ := Option.map_eq_some_iff.mp hpair
    obtain rfl := List.inj_on_of_nodup_map hdistinct hother hmem (congrArg Prod.fst heq)
    rw [hvalue] at hown
    cases hown

end Coercion

/-! ## Normal values -/

/-- Whether a value is as reading leaves it behind at a type, given what the defaults of input
fields come to. For an input object, each field has a normal value, or none if it has no default and
may be null. -/
inductive Normal (schema : Schema) (default : InputDef → Value → Prop) : TypeRef → Value → Prop where
  /-- null where the type allows it -/
  | null {type : TypeRef} : type.nullable = true → Normal schema default type .null
  /-- a list of normal values -/
  | list {item : TypeRef} {nullable : Bool} {values : List Value} :
      (∀ value ∈ values, Normal schema default item value) →
        Normal schema default (.list item nullable) (.list values)
  /-- a value of a scalar that every schema has and that stands for itself -/
  | builtin {name : String} {nullable : Bool} {definition : TypeDef} {value : Value} :
      schema.type? name = some definition → definition.kind = .scalar →
        Schema.isBuiltin name = true → CoercesBuiltin name value.toLiteral value →
          Normal schema default (.named name nullable) value
  /-- a value of a scalar that the schema defines and that stands for itself -/
  | custom {name : String} {nullable : Bool} {definition : TypeDef} {value : Value} :
      schema.type? name = some definition → definition.kind = .scalar →
        Schema.isBuiltin name = false → value ≠ .null → value.toLiteral.toValue = .ok value →
          Normal schema default (.named name nullable) value
  /-- one of the names that an enumeration lists -/
  | enumeration {name member : String} {nullable : Bool} {definition : TypeDef}
      {members : List String} :
      schema.type? name = some definition → definition.kind = .enumeration members →
        member ∈ members → Normal schema default (.named name nullable) (.enumeration member)
  /-- an object whose fields have normal values, in order; those without have no default either, and
  what stands under the name of a type is what its default comes to -/
  | input {name : String} {nullable : Bool} {definition : TypeDef} {fields : List InputDef}
      (value? : InputDef → Option Value) :
      schema.type? name = some definition → definition.kind = .input fields →
        (∀ field ∈ fields, ∀ value, value? field = some value →
          Normal schema default field.type value) →
        (∀ field ∈ fields, value? field = none →
          field.default? = none ∧ field.type.nullable = true) →
        (∀ field ∈ fields, field.name = "__typename" → ∀ value, value? field = some value →
          default field value) →
          Normal schema default (.named name nullable)
            (.object (Coercion.provided fields value?))

/-- `Normal` is monotone in what defaults come to. -/
theorem Normal.imp {schema : Schema} {default default' : InputDef → Value → Prop}
    (hdefault : ∀ field value, default field value → default' field value) {type : TypeRef}
    {value : Value} (h : Normal schema default type value) : Normal schema default' type value := by
  induction h with
  | null hn => exact .null hn
  | list _ ih => exact .list ih
  | builtin ht hk hb hv => exact .builtin ht hk hb hv
  | custom ht hk hb hnull hv => exact .custom ht hk hb hnull hv
  | enumeration ht hk hmem => exact .enumeration ht hk hmem
  | input value? ht hk _ hnone htypename ih =>
    exact .input value? ht hk ih hnone fun field hmem hname value hvalue =>
      hdefault field value (htypename field hmem hname value hvalue)

/-- Whether the values of declarations are as reading leaves them behind. -/
structure NormalFor (schema : Schema) (default : InputDef → Value → Prop)
    (definitions : List InputDef) (value? : InputDef → Option Value) : Prop where
  /-- each value is normal at the type of its declaration -/
  normal : ∀ definition ∈ definitions, ∀ value, value? definition = some value →
    Normal schema default definition.type value
  /-- declarations without a value have no default and need none -/
  empty : ∀ definition ∈ definitions, value? definition = none →
    definition.default? = none ∧ definition.type.nullable = true
  /-- under the name of a type there is a default -/
  typename : ∀ definition ∈ definitions, definition.name = "__typename" → ∀ value,
    value? definition = some value → default definition value

theorem NormalFor.imp {schema : Schema} {default default' : InputDef → Value → Prop}
    (hdefault : ∀ field value, default field value → default' field value)
    {definitions : List InputDef} {value? : InputDef → Option Value}
    (h : NormalFor schema default definitions value?) :
    NormalFor schema default' definitions value? where
  normal definition hmem value hvalue := (h.normal definition hmem value hvalue).imp hdefault
  empty := h.empty
  typename definition hmem hname value hvalue :=
    hdefault definition value (h.typename definition hmem hname value hvalue)

namespace Coercion

variable {schema : Schema} {reader reader' : DefaultReader} {place : Position}

/-! ## What is read is normal -/

theorem normalFor_of_arguments {definitions : List InputDef}
    (hdistinct : (definitions.map (·.name)).Nodup)
    (hreader : ∀ definition value, Reads reader definition value →
      Normal schema (Reads reader) definition.type value) {pairs : List (String × Supplied)}
    (hpairs : ∀ pair ∈ pairs, ∀ type argument position value,
      pair.2.reading type argument position = .ok value → Normal schema (Reads reader) type value)
    {owner : String} {values : Members Value}
    (h : coerceArguments reader place definitions pairs owner = .ok values) :
    ∃ value?, NormalFor schema (Reads reader) definitions value? ∧
      values = provided definitions value? := by
  obtain ⟨value?, hvalue, -, rfl⟩ := (coerceArguments_eq_ok_iff_forall hdistinct).mp h
  -- a value comes from something that is not dropped, or it is a default
  have hsources : ∀ definition ∈ definitions, ∀ value, value? definition = some value →
      (definition.name ≠ "__typename" ∧ Normal schema (Reads reader) definition.type value) ∨
        Reads reader definition value := by
    intro definition hmem value hsome
    rcases coerceArgument_cases (hvalue definition hmem) with
      ⟨supplied, found, hsupplied, hfound, hread⟩ | ⟨found, hfound, hreads⟩ | ⟨hnone, -⟩
    · obtain rfl := Option.some.inj (hsome.symm.trans hfound)
      obtain ⟨hpair, hname⟩ := mem_of_mem_kept (Members.mem_of_get? hsupplied)
      exact .inl ⟨hname, hpairs _ hpair _ _ _ _ hread⟩
    · obtain rfl := Option.some.inj (hsome.symm.trans hfound)
      exact .inr hreads
    · cases hsome.symm.trans hnone
  refine ⟨value?, ⟨fun definition hmem value hsome => ?_, fun definition hmem hnone => ?_,
    fun definition hmem hname value hsome => ?_⟩, rfl⟩
  · rcases hsources definition hmem value hsome with ⟨-, hnormal⟩ | hreads
    · exact hnormal
    · exact hreader definition value hreads
  · rcases coerceArgument_cases (hvalue definition hmem) with
      ⟨_, found, -, hfound, -⟩ | ⟨found, hfound, -⟩ | ⟨-, hempty⟩
    · cases hnone.symm.trans hfound
    · cases hnone.symm.trans hfound
    · exact hempty
  · rcases hsources definition hmem value hsome with ⟨hne, -⟩ | hreads
    · exact absurd hname hne
    · exact hreads

theorem supplied_members (members : List (String × Literal)) (position : Position) :
    ((memberReadings schema reader place (.object members)).map fun (name, literal, reading) =>
        (name, Supplied.mk literal position reading)) =
      members.map fun member => (member.1, supply schema place reader (member.2, position)) := by
  rw [memberReadings, coerceMembers_eq_map, List.map_map]
  rfl

/-- By `coerce_induction`: at each type, what is read is normal if what is read inside is, and if
what defaults are read as is. -/
theorem normal_of_coerce (hschema : schema.InputsDistinct)
    (hreader : ∀ definition value, Reads reader definition value →
      Normal schema (Reads reader) definition.type value) {literal : Literal} {type : TypeRef}
    {argument : String} {position : Position} {value : Value}
    (h : coerce schema reader place literal type argument position = .ok value) :
    Normal schema (Reads reader) type value := by
  refine coerce_induction (P := fun _ type value => Normal schema (Reads reader) type value)
    ?unbound ?null ?list ?single ?named literal type argument position value h
  case unbound => exact fun _ _ hn => .null hn
  case null => exact fun _ hn => .null hn
  case list =>
    intro item nullable literals values hitems
    refine .list fun value hmem => ?_
    obtain ⟨literal, -, hvalue⟩ := exists_of_forall₂ hitems hmem
    exact hvalue
  case single =>
    intro item nullable literal value _ hvalue
    refine .list fun single hmem => ?_
    rw [List.mem_singleton.mp hmem]
    exact hvalue
  case named =>
    intro literal name nullable argument position value hnull _ ih h
    obtain ⟨definition, ht, ⟨hkind, hb, hv⟩ | ⟨hkind, hb, hv⟩ | ⟨names, member, hkind, hmem, rfl, rfl⟩ |
      ⟨fields, members, values, hkind, rfl, hvalues, rfl⟩⟩ := coerceNamed_cases h
    · exact .builtin ht hkind hb hv.toLiteral
    · refine .custom ht hkind hb ?_ (Literal.toValue_toLiteral literal hv)
      rintro rfl
      exact toValue_ne_null hnull hv
    · exact .enumeration ht hkind hmem
    · rw [supplied_members] at hvalues
      obtain ⟨value?, hnormal, rfl⟩ := normalFor_of_arguments (hschema.fields ht hkind) hreader
        (List.forall_mem_map.mpr (ih members rfl)) hvalues
      exact .input value? ht hkind hnormal.normal hnormal.empty hnormal.typename

/-! ## What is normal is read as it is -/

/-- What is kept of the values of declarations that are supplied again: all but what stands under
the name of a type. -/
theorem get?_kept_provided {definitions : List InputDef} {value? : InputDef → Option Value}
    (hdistinct : (definitions.map (·.name)).Nodup) (given : Value → Supplied) {definition : InputDef}
    (hmem : definition ∈ definitions) :
    Members.get? (kept ((provided definitions value?).map fun member =>
        (member.1, given member.2))) definition.name =
      if definition.name ≠ "__typename" then (value? definition).map given else none := by
  have hnames : (Members.names ((provided definitions value?).filter (·.1 ≠ "__typename"))).Nodup :=
    (hdistinct.sublist names_provided_sublist).sublist (List.filter_sublist.map _)
  rw [get?_kept_map, Members.ofPairs_of_nodup hnames,
    Members.get?_filter fun name => decide (name ≠ "__typename"), get?_provided hdistinct hmem]
  by_cases hname : definition.name = "__typename" <;> simp [hname]

/-- Values of declarations are read as they are when they are supplied again, if each of them is. A
field that has the name of a type is not among what is kept, and gets the value of its default
again. -/
theorem coerceArguments_provided {definitions : List InputDef} {value? : InputDef → Option Value}
    (hdistinct : (definitions.map (·.name)).Nodup) {given : Value → Supplied}
    (hread : ∀ definition ∈ definitions, ∀ value, value? definition = some value →
      coerceArgument reader place definition (some (given value)) = .ok (some value))
    (hnone : ∀ definition ∈ definitions, value? definition = none →
      definition.default? = none ∧ definition.type.nullable = true)
    (htypename : ∀ definition ∈ definitions, definition.name = "__typename" →
      ∀ value, value? definition = some value → Reads reader definition value) (owner : String) :
    coerceArguments reader place definitions
        ((provided definitions value?).map fun member => (member.1, given member.2)) owner =
      .ok (provided definitions value?) := by
  refine (coerceArguments_eq_ok_iff_forall hdistinct).mpr
    ⟨value?, fun definition hmem => ?_, fun pair hpair => ?_, rfl⟩
  · rw [get?_kept_provided hdistinct given hmem]
    cases hvalue : value? definition with
    | none =>
      rw [Option.map_none, ite_self]
      exact coerceArgument_none_eq_ok_iff.mpr (.inr ⟨rfl, hnone definition hmem hvalue⟩)
    | some value =>
      split
      · exact hread definition hmem value hvalue
      · next hname =>
        have hreads := htypename definition hmem (not_not.mp hname) value hvalue
        exact coerceArgument_none_eq_ok_iff.mpr (.inl ⟨value, rfl, hreads⟩)
  · obtain ⟨member, hmember, rfl⟩ := List.mem_map.mp (mem_of_mem_kept hpair).1
    obtain ⟨definition, hmem, heq⟩ := List.mem_filterMap.mp hmember
    obtain ⟨value, -, rfl⟩ := Option.map_eq_some_iff.mp heq
    exact ⟨definition, hmem, rfl⟩

theorem coerce_toLiteral_named {value : Value} (hnull : value.toLiteral ≠ .null)
    {name argument : String} {nullable : Bool} {position : Position} :
    coerce schema reader place value.toLiteral (.named name nullable) argument position =
      coerceNamed schema reader place value.toLiteral
        (memberReadings schema reader place value.toLiteral) name argument position :=
  coerce_named hnull (Literal.ne_variable value.variableNames_toLiteral)

/-- The induction is on how the value is normal. Nothing is left for defaults to fill in, except
under the name of a type. -/
theorem coerce_of_normal (hschema : schema.InputsDistinct) {type : TypeRef} {value : Value}
    (h : Normal schema (Reads reader) type value) (argument : String) (position : Position) :
    coerce schema reader place value.toLiteral type argument position = .ok value := by
  induction h generalizing argument position with
  | null hn => simp [Value.toLiteral, coerce, hn]
  | @list item _ values _ ih =>
    have hitem : ∀ value ∈ values, ∀ other,
        coerce schema reader place value.toLiteral item argument position = .ok other ↔
          value = other := by
      intro value hmem other
      rw [ih value hmem, Except.ok.injEq]
    simp only [Value.toLiteral, Value.toLiterals_eq_map, coerce, coerceItems_eq_map, List.map_map,
      List.mapM_map]
    exact congrArg (Functor.map Value.list) ((mapM_eq_ok_iff hitem).mpr (List.forall₂_refl values))
  | @builtin _ _ _ value ht hk hb hv =>
    have hnull : value.toLiteral ≠ .null := by
      intro hnull
      rw [hnull] at hv
      cases hv
    rw [coerce_toLiteral_named hnull]
    exact coerceNamed_builtin ht hk hb hv
  | @custom _ _ _ value ht hk hb hne hv =>
    have hnull : value.toLiteral ≠ .null := by
      intro hnull
      rw [hnull] at hv
      exact hne (Except.ok.inj hv).symm
    rw [coerce_toLiteral_named hnull]
    exact coerceNamed_custom ht hk hb hv
  | @enumeration _ _ _ _ _ ht hk hmem =>
    rw [coerce_toLiteral_named Literal.noConfusion]
    exact coerceNamed_enumeration ht hk hmem
  | @input _ _ _ fields value? ht hk _ hnone htypename ih =>
    have hread : ∀ field ∈ fields, ∀ value, value? field = some value →
        coerceArgument reader place field
          (some (supply schema place reader (value.toLiteral, position))) = .ok (some value) := by
      intro field hmem value hvalue
      rw [coerceArgument_some (Literal.ne_variable value.variableNames_toLiteral)]
      exact congrArg (Functor.map some) (ih field hmem value hvalue _ _)
    have hvalues := coerceArguments_provided (hschema.fields ht hk) hread hnone htypename argument
    rw [coerce_toLiteral_named Literal.noConfusion]
    refine coerceNamed_input ht hk ?_
    rw [Value.toLiteral, Value.toLiteralMembers_eq_map, supplied_members, List.map_map]
    exact hvalues

/-! ## Defaults -/

/-- All defaults that one reader reads are read alike by another, wherever they stand. -/
def Extends (reader reader' : DefaultReader) : Prop :=
  ∀ definition default position position' value,
    reader definition default position = .ok value →
      reader' definition default position' = .ok value

namespace Extends

theorem reads (h : Extends reader reader') {definition : InputDef} {value : Value}
    (hreads : Reads reader definition value) : Reads reader' definition value := by
  obtain ⟨default, position, hdefault, hread⟩ := hreads
  exact ⟨default, position, hdefault, h _ _ _ _ _ hread⟩

theorem argument (h : Extends reader reader') {place' : Position} {definition : InputDef}
    {literal? : Option Literal} {position position' : Position} {value? : Option Value}
    (hliteral : ∀ literal, literal? = some literal → ∀ value,
      Coercion.coerce schema reader place literal definition.type definition.name position =
          .ok value →
        Coercion.coerce schema reader' place' literal definition.type definition.name position' =
          .ok value)
    (hread : coerceArgument reader place definition
      (literal?.map fun literal => supply schema place reader (literal, position)) = .ok value?) :
    coerceArgument reader' place' definition
      (literal?.map fun literal => supply schema place' reader' (literal, position')) =
        .ok value? := by
  have hnone : coerceArgument reader place definition none = .ok value? →
      coerceArgument reader' place' definition none = .ok value? := by
    intro hread
    refine coerceArgument_none_eq_ok_iff.mpr ((coerceArgument_none_eq_ok_iff.mp hread).imp_left ?_)
    rintro ⟨value, rfl, hreads⟩
    exact ⟨value, rfl, h.reads hreads⟩
  cases literal? with
  | none => exact hnone hread
  | some literal =>
    by_cases hvariable : ∃ name, literal = .variable name
    · obtain ⟨name, rfl⟩ := hvariable
      simp only [Option.map_some, supply, coerceArgument_variable] at hread ⊢
      split at hread
      · next hleft =>
        rw [if_pos hleft]
        exact hnone hread
      · cases hread
    · have hne : ∀ name, literal ≠ .variable name := fun name heq => hvariable ⟨name, heq⟩
      simp only [Option.map_some] at hread ⊢
      rw [coerceArgument_some hne] at hread ⊢
      obtain ⟨value, hvalue, rfl⟩ := ok_of_map hread
      exact congrArg (Functor.map some) (hliteral literal rfl value hvalue)

/-- Then all literals that are read with the one are read alike with the other, wherever they
stand. -/
theorem coerce (hschema : schema.InputsDistinct) (h : Extends reader reader') {place' : Position}
    {literal : Literal} {type : TypeRef} {argument argument' : String}
    {position position' : Position} {value : Value}
    (hread : coerce schema reader place literal type argument position = .ok value) :
    Coercion.coerce schema reader' place' literal type argument' position' = .ok value := by
  refine coerce_induction (P := fun literal type value => ∀ argument position,
      Coercion.coerce schema reader' place' literal type argument position = .ok value)
    ?unbound ?null ?list ?single ?named literal type argument position value hread argument' position'
  case unbound =>
    intro name type hn argument position
    simp [Coercion.coerce, hn]
  case null =>
    intro type hn argument position
    simp [Coercion.coerce, hn]
  case list =>
    intro item nullable literals values hitems argument position
    simp only [Coercion.coerce, coerceItems_eq_map, List.mapM_map]
    exact congrArg (Functor.map Value.list) ((mapM_eq_ok_iff fun _ _ _ => Iff.rfl).mpr
      (hitems.imp fun _ _ hitem => hitem argument position))
  case single =>
    intro item nullable literal value hsingle ih argument position
    rw [coerce_list_of_single hsingle, ih]
    rfl
  case named =>
    intro literal name nullable argument₀ position₀ value hnull hvariable ih hnamed argument position
    rw [coerce_named hnull hvariable]
    obtain ⟨definition, ht, ⟨hkind, hb, hv⟩ | ⟨hkind, hb, hv⟩ | ⟨names, member, hkind, hmem, rfl, rfl⟩ |
      ⟨fields, members, values, hkind, rfl, hvalues, rfl⟩⟩ := coerceNamed_cases hnamed
    · exact coerceNamed_builtin ht hkind hb hv
    · exact coerceNamed_custom ht hkind hb hv
    · exact coerceNamed_enumeration ht hkind hmem
    · refine coerceNamed_input ht hkind ?_
      rw [supplied_members] at hvalues ⊢
      obtain ⟨value?, hvalue, hdeclared, rfl⟩ :=
        (coerceArguments_eq_ok_iff_forall (hschema.fields ht hkind)).mp hvalues
      -- under each name the same member counts for both
      let first : Literal → Supplied := fun literal => supply schema place reader (literal, position₀)
      let second : Literal → Supplied := fun literal => supply schema place' reader' (literal, position)
      refine (coerceArguments_eq_ok_iff_forall (hschema.fields ht hkind)).mpr
        ⟨value?, fun field hmem => ?_, fun pair hpair => ?_, rfl⟩
      · have hfield := hvalue field hmem
        rw [get?_kept_map members first] at hfield
        rw [get?_kept_map members second]
        refine h.argument (fun literal hliteral value hvalue => ?_) hfield
        obtain ⟨hmember, -⟩ :=
          List.mem_filter.mp (Members.mem_of_mem_ofPairs (Members.mem_of_get? hliteral))
        exact ih members rfl _ hmember _ _ _ _ hvalue _ _
      · rw [kept_map members second] at hpair
        obtain ⟨own, hown, rfl⟩ := List.mem_map.mp hpair
        rw [kept_map members first] at hdeclared
        exact hdeclared (own.1, first own.2) (List.mem_map.mpr ⟨own, hown, rfl⟩)

end Extends

/-- More steps read at least as much, and places make no difference. The induction is on the steps
of the reader with fewer. -/
theorem extends_readDefault (hschema : schema.InputsDistinct) (place' : Position) {steps more : Nat}
    (hle : steps ≤ more) :
    Extends (readDefault schema place steps) (readDefault schema place' more) := by
  induction steps generalizing more with
  | zero =>
    intro definition default position position' value h
    cases h
  | succ steps ih =>
    obtain ⟨more, rfl⟩ := Nat.exists_eq_succ_of_ne_zero (Nat.ne_zero_of_lt hle)
    intro definition default position position' value h
    rw [readDefault] at h ⊢
    exact (ih (Nat.le_of_succ_le_succ hle)).coerce hschema h

/-- What defaults are read as is normal, however far they are followed. -/
theorem normal_readDefault (hschema : schema.InputsDistinct) (steps : Nat) {definition : InputDef}
    {value : Value} (h : Reads (readDefault schema place steps) definition value) :
    Normal schema (Reads (readDefault schema place steps)) definition.type value := by
  induction steps generalizing definition value with
  | zero =>
    obtain ⟨_, _, -, h⟩ := h
    cases h
  | succ steps ih =>
    obtain ⟨default, position, -, h⟩ := h
    rw [readDefault] at h
    refine (normal_of_coerce hschema (fun _ _ => ih) h).imp fun _ _ hreads => ?_
    exact (extends_readDefault hschema place (Nat.le_succ steps)).reads hreads

/-- What a literal is read as is normal, also with respect to defaults that are read at another
place. -/
theorem normal_coerce (hschema : schema.InputsDistinct) {steps : Nat} {literal : Literal}
    {type : TypeRef} {argument : String} {position : Position} {value : Value}
    (h : coerce schema (readDefault schema place steps) place literal type argument position =
      .ok value) (place' : Position) :
    Normal schema (Reads (readDefault schema place' steps)) type value := by
  refine (normal_of_coerce hschema (fun _ _ => normal_readDefault hschema steps) h).imp ?_
  exact fun _ _ hreads => (extends_readDefault hschema place' (Nat.le_refl steps)).reads hreads

/-! ## Reading again -/

/-- `normal_coerce` and `coerce_of_normal`, one after the other. Bindings do not matter, as no
variable is left in a value. -/
theorem coerce_again (hschema : schema.InputsDistinct) {steps : Nat} {literal : Literal}
    {type : TypeRef} {argument argument' : String} {position position' place' : Position}
    {value : Value} {bindings : Members Value}
    (h : coerce schema (readDefault schema place steps) place literal type argument position =
      .ok value) :
    coerce schema (readDefault schema place' steps) place' (value.toLiteral.bind bindings) type
      argument' position' = .ok value := by
  rw [Literal.bind_of_closed value.variableNames_toLiteral]
  exact coerce_of_normal hschema (normal_coerce hschema h place') argument' position'

theorem argumentsWithin_again (hschema : schema.InputsDistinct) {definitions : List InputDef}
    (hdefinitions : (definitions.map (·.name)).Nodup) {steps : Nat} {bindings : Members Value}
    {field : String} {arguments : List Argument} {values : Members Value}
    (h : argumentsWithin steps schema bindings field place definitions arguments = .ok values)
    (bindings' : Members Value) (field' : String) (place' position : Position) :
    argumentsWithin steps schema bindings' field' place' definitions
      (values.map fun member => ⟨member.1, member.2.toLiteral, position⟩) = .ok values := by
  have hsupplied : ∀ argument ∈ arguments, ∀ type name position value,
      coerce schema (readDefault schema place steps) place (argument.value.bind bindings) type name
          position = .ok value → Normal schema (Reads (readDefault schema place steps)) type value :=
    fun argument _ type name position value hread => normal_coerce hschema hread place
  obtain ⟨value?, hnormal, rfl⟩ := normalFor_of_arguments hdefinitions
    (fun _ _ => normal_readDefault hschema steps) (List.forall_mem_map.mpr hsupplied) h
  have hagain := hnormal.imp fun _ _ hreads =>
    (extends_readDefault hschema place' (Nat.le_refl steps)).reads hreads
  -- in what is supplied now there are no variables
  have hread : ∀ definition ∈ definitions, ∀ value, value? definition = some value →
      coerceArgument (readDefault schema place' steps) place' definition
          (some (supply schema place' (readDefault schema place' steps)
            (value.toLiteral.bind bindings', position))) =
        .ok (some value) := by
    intro definition hmem value hvalue
    rw [Literal.bind_of_closed value.variableNames_toLiteral,
      coerceArgument_some (Literal.ne_variable value.variableNames_toLiteral)]
    exact congrArg (Functor.map some)
      (coerce_of_normal hschema (hagain.normal definition hmem value hvalue) _ _)
  have hsame : argumentsWithin steps schema bindings' field' place' definitions
        ((provided definitions value?).map fun member =>
          ⟨member.1, member.2.toLiteral, position⟩) =
      coerceArguments (readDefault schema place' steps) place' definitions
        ((provided definitions value?).map fun member =>
          (member.1, supply schema place' (readDefault schema place' steps)
            (member.2.toLiteral.bind bindings', position))) field' := by
    rw [argumentsWithin, List.map_map]
    rfl
  rw [hsame]
  exact coerceArguments_provided hdefinitions hread hagain.empty hagain.typename field'

/-- Reading is idempotent. What a literal is read as at a type can be written as a literal again,
which is read at this type as the very same value, whatever values variables have and wherever it
stands. If what the arguments of a field are read as is given for them, they are read as the same
again. -/
theorem coerceAll_stable (hschema : schema.InputsDistinct) {definitions : List InputDef}
    (hdefinitions : (definitions.map (·.name)).Nodup) (bindings bindings' : Members Value)
    (place place' position' : Position) :
    (∀ (literal : Literal) type argument position value,
      coerce schema (readDefault schema place (defaultCount schema + 1)) place
          (literal.bind bindings) type argument position = .ok value →
        ∀ argument', coerce schema (readDefault schema place' (defaultCount schema + 1)) place'
          (value.toLiteral.bind bindings') type argument' position' = .ok value) ∧
    ∀ field arguments values,
      coerceAll schema bindings field place definitions arguments = .ok values →
        ∀ field', coerceAll schema bindings' field' place' definitions
          (values.map fun member => ⟨member.1, member.2.toLiteral, position'⟩) = .ok values :=
  ⟨fun _ _ _ _ _ h _ => coerce_again hschema h,
    fun _ _ _ h field' => argumentsWithin_again hschema hdefinitions h bindings' field' place' position'⟩

end Coercion

namespace Searches

open Coercion

/-- The filter of the search with all that is filled in, in the order of the declarations. -/
def filled : Literal :=
  .object
    [("ids", .list [.list [.string "7"]]),
      ("page", .object [("size", .number (.integer 20 (by decide)))]),
      ("order", .null), ("since", .list [.number (.integer 1999 (by decide)), .null])]

/-- A filter that leaves out its page and gives a number for lists of ids is read as one that has
all of this, and that one is read as itself; so is what the search is given. -/
theorem stable_search : schema.InputsDistinct ∧ (definitions.map (·.name)).Nodup ∧
    filterValue.toLiteral = filled ∧
    coerce schema (readDefault schema ⟨1, 3⟩ (defaultCount schema + 1)) ⟨1, 3⟩
        (filter.value.bind bindings) (.named "Filter" false) "filter" ⟨1, 10⟩ = .ok filterValue ∧
    coerce schema (readDefault schema ⟨2, 5⟩ (defaultCount schema + 1)) ⟨2, 5⟩
        (filterValue.toLiteral.bind []) (.named "Filter" false) "again" ⟨2, 14⟩ = .ok filterValue ∧
    coerceAll schema [] "search" ⟨2, 5⟩ definitions
        (values.map fun member => ⟨member.1, member.2.toLiteral, ⟨2, 14⟩⟩) = .ok values :=
  have hschema : schema.InputsDistinct := by decide
  have hdefinitions : (definitions.map (·.name)).Nodup := by decide
  have hstable := coerceAll_stable hschema hdefinitions bindings [] ⟨1, 3⟩ ⟨2, 5⟩ ⟨2, 14⟩
  ⟨hschema, hdefinitions, rfl, coerce_filter,
    hstable.1 _ _ _ _ _ coerce_filter "again",
    hstable.2 _ _ _ coerceAll_values "search"⟩

end Searches

end FeedGraph
