import FeedGraph.Proofs.Plan.Coercibility
import FeedGraph.Proofs.Plan.Results

/-!
# Readings: what coercion computes

The main statement is `Coercion.coerce_eq_ok_iff`: whatever function defaults are read by, a literal
without variables is read as a value exactly if the rules of `CoercesWith` say that it stands for
this value, where defaults come to what that function reads.

On the way, each function of coercion is described by the same rules. One argument is read as
`coerceArgument_eq_ok_iff` says, arguments that are declared once as `coerceArguments_eq_ok_iff`
says, and the type with a name as `coerceNamed_eq_ok_iff` says.
-/

namespace FeedGraph

/-! ## One declaration at a time -/

/-- What a declaration comes to: the value of the literal that is supplied for it, else that of its
default, else none, if null is allowed. It is `Fills` for one declaration. -/
inductive Settles (coerces : Literal → Value → Prop) (default : Value → Prop)
    (definition : InputDef) : Option Literal → Option Value → Prop where
  | supplied {literal : Literal} {value : Value} : coerces literal value →
      Settles coerces default definition (some literal) (some value)
  | default {value : Value} : definition.default?.isSome = true → default value →
      Settles coerces default definition none (some value)
  | nothing : definition.default? = none → definition.type.nullable = true →
      Settles coerces default definition none none

theorem Settles.eq_ite {coerces : Literal → Value → Prop} {default : Value → Prop}
    {definition : InputDef} {literal? : Option Literal} {value? : Option Value}
    (h : Settles coerces default definition literal? value?) :
    value? = if literal?.isSome || definition.default?.isSome then some (value?.getD .null)
      else none := by
  cases h with
  | supplied _ => rfl
  | default hsome _ => simp [hsome]
  | nothing hnone _ => simp [hnone]

namespace Fills

variable {coerces : InputDef → Literal → Value → Prop} {default : InputDef → Value → Prop}
  {definitions : List InputDef} {members : List (String × Literal)}

/-- From `Fills` to `Settles`: each declaration comes to its result, if there is something to take
it from. -/
theorem settles {result : InputDef → Value} (h : Fills coerces default definitions members result) :
    ∀ definition ∈ definitions, Settles (coerces definition) (default definition) definition
      (supplied? members definition.name)
      (if (supplied? members definition.name).isSome || definition.default?.isSome then
        some (result definition) else none) := by
  intro definition hmem
  cases hsupplied : supplied? members definition.name with
  | some literal => exact .supplied (h.supplied definition hmem literal hsupplied)
  | none =>
    cases hdefault : definition.default? with
    | some _ =>
      have hsome : definition.default?.isSome = true := by rw [hdefault]; rfl
      exact .default hsome (h.default definition hmem hsupplied hsome)
    | none => exact .nothing hdefault (h.nullable definition hmem hsupplied hdefault)

/-- From `Settles` to `Fills`: if all that is supplied is declared, and each declaration comes to
something, this fills them. -/
theorem of_settles {value? : InputDef → Option Value}
    (hdeclared : ∀ member ∈ members, member.1 ≠ "__typename" →
      ∃ definition ∈ definitions, definition.name = member.1)
    (h : ∀ definition ∈ definitions, Settles (coerces definition) (default definition) definition
      (supplied? members definition.name) (value? definition)) :
    Fills coerces default definitions members fun definition => (value? definition).getD .null where
  declared := hdeclared
  supplied definition hmem literal hsupplied := by
    have hsettles := h definition hmem
    rw [hsupplied] at hsettles
    cases hvalue : value? definition with
    | none => rw [hvalue] at hsettles; cases hsettles
    | some value =>
      rw [hvalue] at hsettles
      cases hsettles with
      | supplied hvalue => exact hvalue
  default definition hmem hnone hsome := by
    have hsettles := h definition hmem
    rw [hnone] at hsettles
    cases hvalue : value? definition with
    | none =>
      rw [hvalue] at hsettles
      cases hsettles with
      | nothing hdefault _ => rw [hdefault] at hsome; cases hsome
    | some value =>
      rw [hvalue] at hsettles
      cases hsettles with
      | default _ hvalue => exact hvalue
  nullable definition hmem hnone hdefault := by
    have hsettles := h definition hmem
    rw [hnone] at hsettles
    cases hvalue : value? definition with
    | none =>
      rw [hvalue] at hsettles
      cases hsettles with
      | nothing _ hnullable => exact hnullable
    | some value =>
      rw [hvalue] at hsettles
      cases hsettles with
      | default hsome _ => rw [hdefault] at hsome; cases hsome

end Fills

theorem filled_eq_filterMap {definitions : List InputDef} {members : List (String × Literal)}
    {result : InputDef → Value} {value? : InputDef → Option Value}
    (h : ∀ definition ∈ definitions, value? definition =
      if (supplied? members definition.name).isSome || definition.default?.isSome then
        some (result definition)
      else none) :
    filled definitions members result =
      definitions.filterMap fun definition => (value? definition).map (definition.name, ·) := by
  rw [filled, ← List.filterMap_eq_map, ← List.filterMap_eq_filter, List.filterMap_filterMap]
  refine List.filterMap_congr fun definition hmem => ?_
  rw [h definition hmem]
  split <;> simp_all

namespace Coercion

variable {schema : Schema} {reader : DefaultReader} {place : Position}

/-- What the default of a declaration is read as. It is the relation that `CoercesWith` is given for
defaults when a reader is described. -/
def Reads (reader : DefaultReader) (definition : InputDef) (value : Value) : Prop :=
  ∃ default position, definition.default? = some (default, position) ∧
    reader definition default position = .ok value

/-! ## Arguments -/

/-- What is needed of something supplied so that `coerceArgument` can be described by a relation
`coerces`: it is no variable, and its reading is described by the relation. -/
structure Supplied.ReadBy (supplied : Supplied) (definition : InputDef)
    (coerces : Literal → Value → Prop) : Prop where
  /-- variables without a value may be left out -/
  ne_variable : ∀ name, supplied.literal ≠ .variable name
  /-- what it is read as -/
  reading_iff : ∀ value,
    supplied.reading definition.type definition.name supplied.position = .ok value ↔
      coerces supplied.literal value

theorem coerceArgument_some {definition : InputDef} {supplied : Supplied}
    (h : ∀ name, supplied.literal ≠ .variable name) :
    coerceArgument reader place definition (some supplied) =
      some <$> supplied.reading definition.type definition.name supplied.position := by
  have hgiven : given? definition (some supplied) = .ok (some supplied) := by
    rw [given?.eq_def]
    split
    · next name _ _ heq =>
      obtain rfl := Option.some.inj heq
      exact absurd rfl (h name)
    · rfl
  rw [coerceArgument, hgiven]
  rfl

/-- A variable without a value is as good as nothing, where it may be left out. Inside lists and
objects it is not, where there is no declaration to leave out. -/
theorem coerceArgument_variable {definition : InputDef} {name : String} {position : Position}
    {reading : Reading} :
    coerceArgument reader place definition (some ⟨.variable name, position, reading⟩) =
      if definition.type.nullable ∨ definition.default?.isSome then
        coerceArgument reader place definition none
      else .error (.variableNotFound name position) := by
  simp only [coerceArgument, given?]
  split <;> rfl

theorem Reads.isSome {definition : InputDef} {value : Value} (h : Reads reader definition value) :
    definition.default?.isSome = true := by
  obtain ⟨default, position, hdefault, -⟩ := h
  rw [hdefault]
  rfl

/-- The value of one argument: `Settles` with what its reading and its default come to. -/
theorem coerceArgument_eq_ok_iff {definition : InputDef} {supplied? : Option Supplied}
    {coerces : Literal → Value → Prop}
    (hread : ∀ supplied, supplied? = some supplied → supplied.ReadBy definition coerces)
    {value? : Option Value} :
    coerceArgument reader place definition supplied? = .ok value? ↔
      Settles coerces (Reads reader definition) definition (supplied?.map (·.literal)) value? := by
  cases supplied? with
  | some supplied =>
    obtain ⟨hne, hiff⟩ := hread supplied rfl
    rw [coerceArgument_some hne]
    constructor
    · intro h
      obtain ⟨value, hvalue, rfl⟩ := ok_of_map h
      exact .supplied ((hiff value).mp hvalue)
    · intro h
      cases h with
      | supplied hvalue =>
        rw [(hiff _).mpr hvalue]
        rfl
  | none =>
    cases hdefault : definition.default? with
    | some default =>
      obtain ⟨default, position⟩ := default
      have hvalue : coerceArgument reader place definition none =
          some <$> reader definition default position := by
        simp only [coerceArgument, given?, hdefault]
        rfl
      rw [hvalue]
      constructor
      · intro h
        obtain ⟨value, hread, rfl⟩ := ok_of_map h
        have hreads : Reads reader definition value := ⟨default, position, hdefault, hread⟩
        exact .default hreads.isSome hreads
      · intro h
        cases h with
        | default _ hreads =>
          obtain ⟨default', position', hdefault', hread⟩ := hreads
          rw [hdefault] at hdefault'
          obtain ⟨rfl, rfl⟩ := Prod.mk.inj (Option.some.inj hdefault')
          rw [hread]
          rfl
        | nothing hnone _ =>
          rw [hdefault] at hnone
          cases hnone
    | none =>
      have hvalue : coerceArgument reader place definition none =
          if definition.type.nullable then .ok none
          else .error (.missingArgument definition.name place) := by
        simp only [coerceArgument, given?, hdefault]
        rfl
      rw [hvalue]
      constructor
      · intro h
        split at h
        · next hn =>
          obtain rfl := Except.ok.inj h
          exact .nothing hdefault hn
        · cases h
      · intro h
        cases h with
        | default hsome _ =>
          rw [hdefault] at hsome
          cases hsome
        | nothing _ hn => rw [if_pos hn]

theorem coerceArgument_none_eq_ok_iff {definition : InputDef} {value? : Option Value} :
    coerceArgument reader place definition none = .ok value? ↔
      (∃ value, value? = some value ∧ Reads reader definition value) ∨
        (value? = none ∧ definition.default? = none ∧ definition.type.nullable = true) := by
  have hnothing : ∀ supplied : Supplied, none = some supplied →
      supplied.ReadBy definition fun _ _ => False := nofun
  rw [coerceArgument_eq_ok_iff hnothing]
  constructor
  · intro h
    cases h with
    | default _ hreads => exact .inl ⟨_, rfl, hreads⟩
    | nothing hnone hnullable => exact .inr ⟨rfl, hnone, hnullable⟩
  · rintro (⟨value, rfl, hreads⟩ | ⟨rfl, hnone, hnullable⟩)
    · exact .default hreads.isSome hreads
    · exact .nothing hnone hnullable

/-- What one argument comes to is read from what is supplied for it, or from its default; or it
comes to nothing. Unlike `coerceArgument_eq_ok_iff` this holds for variables, too. -/
theorem coerceArgument_cases {definition : InputDef} {supplied? : Option Supplied}
    {value? : Option Value} (h : coerceArgument reader place definition supplied? = .ok value?) :
    (∃ supplied value, supplied? = some supplied ∧ value? = some value ∧
      supplied.reading definition.type definition.name supplied.position = .ok value) ∨
      (∃ value, value? = some value ∧ Reads reader definition value) ∨
      (value? = none ∧ definition.default? = none ∧ definition.type.nullable = true) := by
  obtain ⟨given, hgiven, h⟩ := ok_of_bind h
  cases given with
  | none => exact .inr (coerceArgument_none_eq_ok_iff.mp h)
  | some supplied =>
    -- what is read is what was supplied: only variables without a value are dropped
    have hsupplied : supplied? = some supplied := by
      rw [given?.eq_def] at hgiven
      split at hgiven
      · split at hgiven <;> cases hgiven
      · exact Except.ok.inj hgiven
    obtain ⟨value, hvalue, rfl⟩ := ok_of_map h
    exact .inl ⟨supplied, value, hsupplied, rfl, hvalue⟩

/-- The induction is on the declarations. As each name is declared once, what is supplied for a
declaration is not used up by those before it, and its value comes last. -/
theorem coerceDeclared_of_forall {definitions : List InputDef}
    (hdistinct : (definitions.map (·.name)).Nodup) {supplied : Members Supplied}
    {values : Members Value} (hnew : ∀ definition ∈ definitions,
      definition.name ∉ Members.names values) {value? : InputDef → Option Value}
    (h : ∀ definition ∈ definitions, coerceArgument reader place definition
      (Members.get? supplied definition.name) = .ok (value? definition)) :
    coerceDeclared reader place definitions supplied values =
      .ok (values ++ definitions.filterMap fun definition =>
          (value? definition).map (definition.name, ·),
        definitions.foldl (fun supplied definition => Members.erase supplied definition.name)
          supplied) := by
  induction definitions generalizing supplied values with
  | nil => simp [coerceDeclared]
  | cons definition rest ih =>
    obtain ⟨hname, hrest⟩ := List.nodup_cons.mp hdistinct
    have hne : ∀ other ∈ rest, definition.name ≠ other.name := fun other hother he =>
      hname (List.mem_map.mpr ⟨other, hother, he.symm⟩)
    -- what is used up for one declaration was not supplied for any of the others
    have herase : ∀ other ∈ rest, coerceArgument reader place other
        (Members.get? (Members.erase supplied definition.name) other.name) =
          .ok (value? other) := by
      intro other hother
      rw [Members.get?_erase_of_ne supplied (hne other hother)]
      exact h other (List.mem_cons_of_mem _ hother)
    rw [coerceDeclared, h definition List.mem_cons_self, List.foldl_cons]
    cases hvalue : value? definition with
    | none =>
      rw [List.filterMap_cons_none (by rw [hvalue]; rfl)]
      exact ih hrest (fun other hother => hnew other (List.mem_cons_of_mem _ hother)) herase
    | some value =>
      -- a new name goes behind those that are there, and so the values are in the order of the
      -- declarations
      have hset : Members.set values definition.name value =
          values ++ [(definition.name, value)] :=
        Members.set_of_not_mem values value (hnew definition List.mem_cons_self)
      have hnext : ∀ other ∈ rest,
          other.name ∉ Members.names (Members.set values definition.name value) := by
        intro other hother hmem
        rw [hset, Members.names, List.map_append] at hmem
        rcases List.mem_append.mp hmem with hmem | hmem
        · exact hnew other (List.mem_cons_of_mem _ hother) hmem
        · exact hne other hother (List.mem_singleton.mp hmem).symm
      rw [List.filterMap_cons_some (by rw [hvalue]; rfl), List.append_cons, ← hset]
      exact ih hrest hnext herase

theorem forall_of_coerceDeclared {definitions : List InputDef}
    (hdistinct : (definitions.map (·.name)).Nodup) {supplied : Members Supplied}
    {values : Members Value} {result : Members Value × Members Supplied}
    (h : coerceDeclared reader place definitions supplied values = .ok result) :
    ∀ definition ∈ definitions, ∃ value?, coerceArgument reader place definition
      (Members.get? supplied definition.name) = .ok value? := by
  induction definitions generalizing supplied values with
  | nil => exact fun _ hmem => absurd hmem List.not_mem_nil
  | cons definition rest ih =>
    obtain ⟨hname, hrest⟩ := List.nodup_cons.mp hdistinct
    rw [coerceDeclared] at h
    obtain ⟨value?, hvalue, h⟩ := ok_of_bind h
    refine List.forall_mem_cons.mpr ⟨⟨value?, hvalue⟩, fun other hother => ?_⟩
    have hne : definition.name ≠ other.name := fun he =>
      hname (List.mem_map.mpr ⟨other, hother, he.symm⟩)
    obtain ⟨other?, hvalue⟩ := ih hrest h other hother
    rw [Members.get?_erase_of_ne supplied hne] at hvalue
    exact ⟨other?, hvalue⟩

theorem foldl_erase_eq_nil_iff {definitions : List InputDef} {supplied : Members Supplied}
    (hnames : (Members.names supplied).Nodup) :
    definitions.foldl (fun supplied definition => Members.erase supplied definition.name) supplied =
        [] ↔
      ∀ pair ∈ supplied, ∃ definition ∈ definitions, definition.name = pair.1 := by
  induction definitions generalizing supplied with
  | nil => simp [List.eq_nil_iff_forall_not_mem]
  | cons definition rest ih =>
    have hnames' : (Members.names (supplied.filter (·.1 ≠ definition.name))).Nodup :=
      hnames.sublist (List.filter_sublist.map _)
    rw [List.foldl_cons, Members.erase_eq_filter hnames, ih hnames']
    constructor
    · intro h pair hpair
      by_cases hname : definition.name = pair.1
      · exact ⟨definition, List.mem_cons_self, hname⟩
      · have hkept : pair ∈ supplied.filter (·.1 ≠ definition.name) :=
          List.mem_filter.mpr ⟨hpair, by simpa using Ne.symm hname⟩
        obtain ⟨other, hother, heq⟩ := h pair hkept
        exact ⟨other, List.mem_cons_of_mem _ hother, heq⟩
    · intro h pair hpair
      obtain ⟨hpair, hname⟩ := List.mem_filter.mp hpair
      obtain ⟨other, hother, heq⟩ := h pair hpair
      rcases List.mem_cons.mp hother with rfl | hother
      · exact absurd heq.symm (by simpa using hname)
      · exact ⟨other, hother, heq⟩

def literals (pairs : List (String × Supplied)) : List (String × Literal) :=
  pairs.map fun pair => (pair.1, pair.2.literal)

/-- What counts of what is supplied: the last under each name, and nothing under the name of a
type. -/
def kept (pairs : List (String × Supplied)) : Members Supplied :=
  Members.ofPairs (pairs.filter (·.1 ≠ "__typename"))

theorem kept_map {α : Type} (given : List (String × α)) (f : α → Supplied) :
    kept (given.map fun pair => (pair.1, f pair.2)) =
      (Members.ofPairs (given.filter (·.1 ≠ "__typename"))).map fun pair => (pair.1, f pair.2) := by
  rw [kept, List.filter_map, ← Members.ofPairs_map]
  rfl

theorem get?_kept_map {α : Type} (given : List (String × α)) (f : α → Supplied) (name : String) :
    Members.get? (kept (given.map fun pair => (pair.1, f pair.2))) name =
      (Members.get? (Members.ofPairs (given.filter (·.1 ≠ "__typename"))) name).map f := by
  rw [kept_map, Members.get?_map]

theorem mem_of_mem_kept {pairs : List (String × Supplied)} {pair : String × Supplied}
    (h : pair ∈ kept pairs) : pair ∈ pairs ∧ pair.1 ≠ "__typename" := by
  obtain ⟨hmem, hname⟩ := List.mem_filter.mp (Members.mem_of_mem_ofPairs h)
  exact ⟨hmem, by simpa using hname⟩

/-- `kept` is to what is supplied what `supplied?` is to the literals alone, for names that
count. -/
theorem supplied?_literals (pairs : List (String × Supplied)) {name : String}
    (h : name ≠ "__typename") :
    supplied? (literals pairs) name = (Members.get? (kept pairs) name).map (·.literal) := by
  have hfilter : (pairs.filter (·.1 ≠ "__typename")).filter (·.1 = name) =
      pairs.filter (·.1 = name) := by
    rw [List.filter_filter]
    refine List.filter_congr fun pair _ => ?_
    by_cases hname : pair.1 = name <;> simp [hname, h]
  rw [kept, Members.get?_ofPairs, hfilter, supplied?, literals, List.filter_map, List.getLast?_map,
    Option.map_map, Option.map_map]
  rfl

theorem declared_literals_iff {definitions : List InputDef} {pairs : List (String × Supplied)} :
    (∀ pair ∈ kept pairs, ∃ definition ∈ definitions, definition.name = pair.1) ↔
      ∀ member ∈ literals pairs, member.1 ≠ "__typename" →
        ∃ definition ∈ definitions, definition.name = member.1 := by
  constructor
  · intro h member hmember hname
    obtain ⟨pair, hmem, rfl⟩ := List.mem_map.mp hmember
    have hpair : pair ∈ pairs.filter (·.1 ≠ "__typename") :=
      List.mem_filter.mpr ⟨hmem, by simpa using hname⟩
    -- a later pair may stand in its place, but under the same name
    obtain ⟨other, hother, heq⟩ := List.mem_map.mp
      (Members.mem_names_ofPairs.mpr (List.mem_map_of_mem hpair))
    obtain ⟨definition, hdefinition, hdeclared⟩ := h other hother
    exact ⟨definition, hdefinition, hdeclared.trans heq⟩
  · intro h pair hpair
    obtain ⟨hmem, hname⟩ := mem_of_mem_kept hpair
    exact h _ (List.mem_map_of_mem hmem) hname

/-- The values of declarations, each of which may have one, in the order of the declarations. -/
def provided (definitions : List InputDef) (value? : InputDef → Option Value) : Members Value :=
  definitions.filterMap fun definition => (value? definition).map (definition.name, ·)

/-- Arguments are read one by one, each from what counts under its name, and nothing else is
supplied. With this, the loop over the declarations and what is left over are gone. -/
theorem coerceArguments_eq_ok_iff_forall {definitions : List InputDef}
    (hdistinct : (definitions.map (·.name)).Nodup) {pairs : List (String × Supplied)} {owner : String}
    {values : Members Value} :
    coerceArguments reader place definitions pairs owner = .ok values ↔
      ∃ value? : InputDef → Option Value,
        (∀ definition ∈ definitions, coerceArgument reader place definition
          (Members.get? (kept pairs) definition.name) = .ok (value? definition)) ∧
        (∀ pair ∈ kept pairs, ∃ definition ∈ definitions, definition.name = pair.1) ∧
        values = provided definitions value? := by
  have hstray : definitions.foldl (fun supplied definition =>
        Members.erase supplied definition.name) (kept pairs) = [] ↔
      ∀ pair ∈ kept pairs, ∃ definition ∈ definitions, definition.name = pair.1 :=
    foldl_erase_eq_nil_iff (Members.nodup_names_ofPairs _)
  have heq : coerceArguments reader place definitions pairs owner =
      coerceDeclared reader place definitions (kept pairs) [] >>= fun read =>
        if read.2.isEmpty then .ok read.1
        else .error (.strayArguments (Members.names read.2) owner place) := rfl
  rw [heq]
  constructor
  · intro h
    obtain ⟨⟨all, stray⟩, hall, h⟩ := ok_of_bind h
    choose! value? hvalue using forall_of_coerceDeclared hdistinct hall
    -- so all are read, and what comes out is what was read
    have hagain : coerceDeclared reader place definitions (kept pairs) [] = _ :=
      coerceDeclared_of_forall hdistinct (fun _ _ => List.not_mem_nil) hvalue
    rw [hall] at hagain
    obtain ⟨rfl, rfl⟩ := Prod.mk.inj (Except.ok.inj hagain)
    split at h
    · next hempty =>
      obtain rfl := Except.ok.inj h
      exact ⟨value?, hvalue, hstray.mp (List.isEmpty_iff.mp hempty), rfl⟩
    · cases h
  · rintro ⟨value?, hvalue, hdeclared, rfl⟩
    have hall : coerceDeclared reader place definitions (kept pairs) [] = _ :=
      coerceDeclared_of_forall hdistinct (fun _ _ => List.not_mem_nil) hvalue
    rw [hall, hstray.mpr hdeclared]
    rfl

/-- The values of arguments that are declared once: the results that `Fills` allows, put in the
order of the declarations by `filled`. -/
theorem coerceArguments_eq_ok_iff {definitions : List InputDef} (hdeclared : DeclaredOnce definitions)
    {pairs : List (String × Supplied)} {coerces : InputDef → Literal → Value → Prop}
    (hread : ∀ pair ∈ pairs, ∀ definition ∈ definitions,
      pair.2.ReadBy definition (coerces definition))
    {owner : String} {values : Members Value} :
    coerceArguments reader place definitions pairs owner = .ok values ↔
      ∃ result, Fills coerces (Reads reader) definitions (literals pairs) result ∧
        values = filled definitions (literals pairs) result := by
  have hargument : ∀ definition ∈ definitions, ∀ value?,
      coerceArgument reader place definition (Members.get? (kept pairs) definition.name) =
          .ok value? ↔
        Settles (coerces definition) (Reads reader definition) definition
          (supplied? (literals pairs) definition.name) value? := by
    intro definition hmem value?
    rw [supplied?_literals pairs (hdeclared.ne_typename definition hmem)]
    exact coerceArgument_eq_ok_iff fun supplied hsupplied =>
      hread _ (mem_of_mem_kept (Members.mem_of_get? hsupplied)).1 definition hmem
  rw [coerceArguments_eq_ok_iff_forall hdeclared.distinct]
  constructor
  · rintro ⟨value?, hvalue, hall, rfl⟩
    have hsettles := fun definition hmem => (hargument definition hmem _).mp (hvalue definition hmem)
    exact ⟨_, .of_settles (declared_literals_iff.mp hall) hsettles,
      (filled_eq_filterMap fun definition hmem => (hsettles definition hmem).eq_ite).symm⟩
  · rintro ⟨result, hfills, rfl⟩
    exact ⟨_, fun definition hmem => (hargument definition hmem _).mpr (hfills.settles definition hmem),
      declared_literals_iff.mpr hfills.declared, filled_eq_filterMap fun _ _ => rfl⟩

/-! ## Types with a name -/

/-- Literals of the scalars that every schema has. -/
theorem coerceBuiltin_eq_some_iff {name : String} {literal : Literal} {value : Value} :
    coerceBuiltin name literal = some value ↔ CoercesBuiltin name literal value := by
  have hint : ∀ {i : Int} {h : Json.IntegerRange i}, Literal.Int32Range i →
      Value.Number.ofJson (.integer i h) = .int64 (Int64.ofInt i) := by
    intro i h hrange
    exact if_pos (by have := hrange.2; omega)
  constructor
  · intro h
    cases literal with
    | number n =>
      rw [coerceBuiltin] at h
      unfold coerceNumber at h
      split at h
      · split at h
        · next hrange =>
          obtain rfl := Option.some.inj h
          rw [hint hrange]
          exact .int hrange
        · cases h
      · obtain rfl := Option.some.inj h
        exact .float
      · obtain rfl := Option.some.inj h
        exact .idInteger
      · cases h
    | string s =>
      simp only [coerceBuiltin] at h
      split at h
      · next hname =>
        obtain rfl := Option.some.inj h
        rcases hname with rfl | rfl
        · exact .string
        · exact .id
      · cases h
    | boolean b =>
      simp only [coerceBuiltin] at h
      split at h
      · next hname =>
        obtain rfl := Option.some.inj h
        obtain rfl := hname
        exact .boolean
      · cases h
    | _ => cases h
  · intro h
    cases h with
    | int hrange => simp only [coerceBuiltin, coerceNumber, if_pos hrange, hint hrange]
    | _ => rfl

/-- Of each kind of type only some literals are read: the inversion of `coerceNamed`, without
conditions on the schema. -/
theorem coerceNamed_cases {literal : Literal} {readings : List (String × (Literal × Reading))}
    {name argument : String} {position : Position} {value : Value}
    (h : coerceNamed schema reader place literal readings name argument position = .ok value) :
    ∃ definition, schema.type? name = some definition ∧
      ((definition.kind = .scalar ∧ Schema.isBuiltin name = true ∧
          CoercesBuiltin name literal value) ∨
        (definition.kind = .scalar ∧ Schema.isBuiltin name = false ∧
          literal.toValue = .ok value) ∨
        (∃ members member, definition.kind = .enumeration members ∧ member ∈ members ∧
          literal = .enumeration member ∧ value = .enumeration member) ∨
        ∃ fields members values, definition.kind = .input fields ∧ literal = .object members ∧
          coerceArguments reader place fields (readings.map fun (n, l, reading) =>
            (n, ⟨l, position, reading⟩)) argument = .ok values ∧ value = .object values) := by
  rw [coerceNamed.eq_def] at h
  cases ht : schema.type? name with
  | none => simp [ht] at h
  | some definition =>
    refine ⟨definition, rfl, ?_⟩
    cases hkind : definition.kind with
    | scalar =>
      simp only [ht, hkind] at h
      by_cases hb : Schema.isBuiltin name = true
      · rw [if_pos hb] at h
        cases hv : coerceBuiltin name literal with
        | none => simp [hv] at h
        | some result =>
          simp only [hv, Except.ok.injEq] at h
          obtain rfl := h
          exact .inl ⟨rfl, hb, coerceBuiltin_eq_some_iff.mp hv⟩
      · rw [if_neg hb, coerceOpaque.eq_def] at h
        cases hv : literal.toValue with
        | error unbound => simp [hv] at h
        | ok result =>
          simp only [hv, Except.ok.injEq] at h
          obtain rfl := h
          exact .inr (.inl ⟨rfl, by simpa using hb, rfl⟩)
    | enumeration members =>
      cases literal with
      | enumeration member =>
        simp only [ht, hkind] at h
        split at h
        · next hc =>
          obtain rfl := Except.ok.inj h
          exact .inr (.inr (.inl ⟨members, member, rfl, by simpa using hc, rfl, rfl⟩))
        · cases h
      | _ => simp [ht, hkind] at h
    | input fields =>
      cases literal with
      | object members =>
        simp only [ht, hkind] at h
        obtain ⟨values, hvalues, rfl⟩ := ok_of_map h
        exact .inr (.inr (.inr ⟨fields, members, values, rfl, rfl, hvalues, rfl⟩))
      | _ => simp [ht, hkind] at h
    | _ => simp [ht, hkind] at h

section

variable {literal : Literal} {readings : List (String × (Literal × Reading))}
  {name argument : String} {position : Position} {definition : TypeDef} {value : Value}

theorem coerceNamed_builtin (ht : schema.type? name = some definition)
    (hkind : definition.kind = .scalar) (hb : Schema.isBuiltin name = true)
    (hv : CoercesBuiltin name literal value) :
    coerceNamed schema reader place literal readings name argument position = .ok value := by
  rw [coerceNamed.eq_def]
  simp only [ht, hkind, if_pos hb, coerceBuiltin_eq_some_iff.mpr hv]

theorem coerceNamed_custom (ht : schema.type? name = some definition)
    (hkind : definition.kind = .scalar) (hb : Schema.isBuiltin name = false)
    (hv : literal.toValue = .ok value) :
    coerceNamed schema reader place literal readings name argument position = .ok value := by
  rw [coerceNamed.eq_def]
  simp [ht, hkind, hb, coerceOpaque, hv]

theorem coerceNamed_enumeration {members : List String} {member : String}
    (ht : schema.type? name = some definition) (hkind : definition.kind = .enumeration members)
    (hmem : member ∈ members) :
    coerceNamed schema reader place (.enumeration member) readings name argument position =
      .ok (.enumeration member) := by
  rw [coerceNamed.eq_def]
  simp [ht, hkind, hmem]

theorem coerceNamed_input {fields : List InputDef} {members : List (String × Literal)}
    {values : Members Value} (ht : schema.type? name = some definition)
    (hkind : definition.kind = .input fields)
    (hvalues : coerceArguments reader place fields (readings.map fun (n, l, reading) =>
      (n, ⟨l, position, reading⟩)) argument = .ok values) :
    coerceNamed schema reader place (.object members) readings name argument position =
      .ok (.object values) := by
  rw [coerceNamed.eq_def]
  simp only [ht, hkind]
  exact congrArg (Functor.map Value.object) hvalues

end

/-- A literal other than null as a value of the type with a name. The members of an object are read
as given, so that the induction on the literal can be made elsewhere. -/
theorem coerceNamed_eq_ok_iff (hschema : schema.InputsDeclaredOnce) {literal : Literal}
    (hnull : literal ≠ .null) {readings : List (String × (Literal × Reading))} {position : Position}
    (hmembers : ∀ members, literal = .object members →
      members = readings.map fun member => (member.1, member.2.1))
    (hread : ∀ member ∈ readings, ∀ definition : InputDef,
      Supplied.ReadBy ⟨member.2.1, position, member.2.2⟩ definition
        (CoercesWith schema (Reads reader) definition.type))
    {name argument : String} {nullable : Bool} {value : Value} :
    coerceNamed schema reader place literal readings name argument position = .ok value ↔
      CoercesWith schema (Reads reader) (.named name nullable) literal value := by
  let pairs : List (String × Supplied) :=
    readings.map fun (n, l, reading) => (n, ⟨l, position, reading⟩)
  -- the members of an object are read as the arguments of its fields
  have harguments : ∀ {fields : List InputDef}, DeclaredOnce fields → ∀ {values},
      coerceArguments reader place fields pairs argument = .ok values ↔
        ∃ result, Fills (fun field => CoercesWith schema (Reads reader) field.type) (Reads reader)
            fields (literals pairs) result ∧
          values = filled fields (literals pairs) result := by
    intro fields hfields values
    refine coerceArguments_eq_ok_iff hfields fun pair hpair definition _ => ?_
    obtain ⟨member, hmember, rfl⟩ := List.mem_map.mp hpair
    exact hread member hmember definition
  have hliterals : literals pairs = readings.map fun member => (member.1, member.2.1) := by
    rw [literals, List.map_map]
    rfl
  constructor
  · intro h
    obtain ⟨definition, ht, ⟨hkind, hb, hv⟩ | ⟨hkind, hb, hv⟩ | ⟨names, member, hkind, hmem, rfl, rfl⟩ |
      ⟨fields, members, values, hkind, rfl, hvalues, rfl⟩⟩ := coerceNamed_cases h
    · exact .builtin ht hkind hb hv
    · exact .custom ht hkind hb hnull hv
    · exact .enumeration ht hkind hmem
    · obtain ⟨result, hfills, rfl⟩ := (harguments (hschema.fields ht hkind)).mp hvalues
      rw [hliterals, ← hmembers members rfl] at hfills ⊢
      exact .of_fills ht hkind hfills
  · intro h
    cases h with
    | null _ => exact absurd rfl hnull
    | builtin ht hkind hb hv => exact coerceNamed_builtin ht hkind hb hv
    | custom ht hkind hb _ hv => exact coerceNamed_custom ht hkind hb hv
    | enumeration ht hkind hmem => exact coerceNamed_enumeration ht hkind hmem
    | @input _ _ _ fields members result ht hkind hdeclared hsupplied hdefault hnullable =>
      have hfills : Fills (fun field => CoercesWith schema (Reads reader) field.type)
          (Reads reader) fields members result := ⟨hdeclared, hsupplied, hdefault, hnullable⟩
      rw [hmembers members rfl, ← hliterals] at hfills ⊢
      exact coerceNamed_input ht hkind
        ((harguments (hschema.fields ht hkind)).mpr ⟨result, hfills, rfl⟩)

/-! ## Literals -/

theorem coerceItems_eq_map (items : List Literal) :
    coerceItems schema reader place items = items.map (coerce schema reader place) := by
  induction items with
  | nil => rfl
  | cons item rest ih => rw [coerceItems, ih, List.map_cons]

theorem coerceMembers_eq_map (members : List (String × Literal)) :
    coerceMembers schema reader place members =
      members.map fun member => (member.1, member.2, coerce schema reader place member.2) := by
  induction members with
  | nil => rfl
  | cons member rest ih => rw [coerceMembers, ih, List.map_cons]

/-- Literals that are read as they are, or as a list of one item. -/
def Single (literal : Literal) : Prop :=
  literal ≠ .null ∧ (∀ name, literal ≠ .variable name) ∧ ∀ items, literal ≠ .list items

def memberReadings (schema : Schema) (reader : DefaultReader) (place : Position) :
    Literal → List (String × (Literal × Reading))
  | .object members => coerceMembers schema reader place members
  | _ => []

theorem coerce_named {literal : Literal} (hnull : literal ≠ .null)
    (hvariable : ∀ name, literal ≠ .variable name) {name argument : String} {nullable : Bool}
    {position : Position} :
    coerce schema reader place literal (.named name nullable) argument position =
      coerceNamed schema reader place literal (memberReadings schema reader place literal) name
        argument position := by
  cases literal <;> simp_all [coerce, wrapped, memberReadings]

theorem coerce_list_of_single {literal : Literal} (h : Single literal) {item : TypeRef}
    {nullable : Bool} {argument : String} {position : Position} :
    coerce schema reader place literal (.list item nullable) argument position =
      (coerce schema reader place literal item argument position).map fun value =>
        .list [value] := by
  obtain ⟨hnull, hvariable, hlist⟩ := h
  cases literal <;> simp_all [coerce, wrapped]

/-- Induction on what is read: what holds of variables and null where null is allowed, of lists if
it holds of their items, and of literals for the type with a name if it holds of their members,
holds of all that is read. The recursion is on the literal and, for single items of lists, on the
type; the conditions are one for each way in which `coerce` can succeed. -/
@[elab_as_elim]
theorem coerce_induction {P : Literal → TypeRef → Value → Prop}
    (unbound : ∀ name type, type.nullable = true → P (.variable name) type .null)
    (null : ∀ type, type.nullable = true → P .null type .null)
    (list : ∀ item nullable literals values, List.Forall₂ (P · item) literals values →
      P (.list literals) (.list item nullable) (.list values))
    (single : ∀ item nullable literal value, Single literal → P literal item value →
      P literal (.list item nullable) (.list [value]))
    (named : ∀ literal name nullable argument position value, literal ≠ .null →
      (∀ name, literal ≠ .variable name) →
      (∀ members, literal = .object members → ∀ member ∈ members, ∀ type argument position value,
        coerce schema reader place member.2 type argument position = .ok value →
          P member.2 type value) →
      coerceNamed schema reader place literal (memberReadings schema reader place literal) name
        argument position = .ok value → P literal (.named name nullable) value)
    (literal : Literal) (type : TypeRef) (argument : String) (position : Position) (value : Value)
    (h : coerce schema reader place literal type argument position = .ok value) :
    P literal type value := by
  -- a single literal is read at the type inside all lists, whatever it is there
  have of_single : ∀ {literal : Literal}, Single literal →
      (∀ members, literal = .object members → ∀ member ∈ members, ∀ type argument position value,
        coerce schema reader place member.2 type argument position = .ok value →
          P member.2 type value) →
      ∀ {type argument position value},
        coerce schema reader place literal type argument position = .ok value →
          P literal type value := by
    intro literal hsingle hmembers type argument position value h
    induction type generalizing value with
    | named name nullable =>
      rw [coerce_named hsingle.1 hsingle.2.1] at h
      exact named _ _ _ _ _ _ hsingle.1 hsingle.2.1 hmembers h
    | list item nullable ih =>
      rw [coerce_list_of_single hsingle] at h
      obtain ⟨inner, hinner, rfl⟩ := ok_of_map h
      exact single _ _ _ _ hsingle (ih hinner)
  induction literal using Literal.structural generalizing type argument position value with
  | unbound name =>
    simp only [coerce] at h
    split at h
    · next hn =>
      obtain rfl := Except.ok.inj h
      exact unbound name type hn
    · cases h
  | null =>
    simp only [coerce] at h
    split at h
    · next hn =>
      obtain rfl := Except.ok.inj h
      exact null type hn
    · cases h
  | list items ih =>
    cases type with
    | named name nullable =>
      exact named _ _ _ _ _ _ Literal.noConfusion (fun _ => Literal.noConfusion)
        (fun _ => Literal.noConfusion) h
    | list item nullable =>
      simp only [coerce, coerceItems_eq_map, List.mapM_map] at h
      obtain ⟨values, hvalues, rfl⟩ := ok_of_map h
      have hitems : ∀ literal ∈ items, ∀ value,
          coerce schema reader place literal item argument position = .ok value →
            P literal item value :=
        fun literal hmem _ hvalue => ih literal hmem _ _ _ _ hvalue
      refine list _ _ _ _ (((List.forall₂_and_left _ _).mpr ⟨hitems, forall₂_of_mapM hvalues⟩).imp ?_)
      exact fun literal value h => h.1 value h.2
  | object members ih =>
    refine of_single ⟨Literal.noConfusion, fun _ => Literal.noConfusion,
      fun _ => Literal.noConfusion⟩ (fun members' heq member hmember => ?_) h
    obtain rfl := Literal.object.inj heq
    exact ih member hmember
  | _ =>
    exact of_single ⟨Literal.noConfusion, fun _ => Literal.noConfusion,
      fun _ => Literal.noConfusion⟩ (fun _ => Literal.noConfusion) h

/-- The induction is on the type: at a list type, a single literal is read as one item, and so it is
by the rules. -/
theorem coerce_eq_ok_iff_of_single {literal : Literal} (hsingle : Single literal)
    {argument : String} {position : Position}
    (hnamed : ∀ name nullable value,
      coerce schema reader place literal (.named name nullable) argument position = .ok value ↔
        CoercesWith schema (Reads reader) (.named name nullable) literal value)
    {type : TypeRef} {value : Value} :
    coerce schema reader place literal type argument position = .ok value ↔
      CoercesWith schema (Reads reader) type literal value := by
  induction type generalizing value with
  | named name nullable => exact hnamed name nullable value
  | list item nullable ih =>
    rw [coerce_list_of_single hsingle, CoercesWith.single_iff hsingle.1 hsingle.2.2]
    constructor
    · intro h
      obtain ⟨inner, hinner, rfl⟩ := ok_of_map h
      exact ⟨inner, ih.mp hinner, rfl⟩
    · rintro ⟨inner, hinner, rfl⟩
      rw [ih.mpr hinner]
      rfl

theorem coerce_eq_ok_iff_of_simple (hschema : schema.InputsDeclaredOnce) {literal : Literal}
    (hsingle : Single literal) (hobject : ∀ members, literal ≠ .object members) {type : TypeRef}
    {argument : String} {position : Position} {value : Value} :
    coerce schema reader place literal type argument position = .ok value ↔
      CoercesWith schema (Reads reader) type literal value := by
  refine coerce_eq_ok_iff_of_single hsingle fun name nullable value => ?_
  have hnone : memberReadings schema reader place literal = [] := by
    cases literal <;> simp_all [memberReadings]
  rw [coerce_named hsingle.1 hsingle.2.1, hnone]
  exact coerceNamed_eq_ok_iff hschema hsingle.1 (fun members h => absurd h (hobject members))
    fun _ hmem => absurd hmem List.not_mem_nil

/-- A literal without variables is read as a value exactly if it stands for this value, where
defaults come to what they are read as. The induction is on the literal; what is in objects is read
with the same reader, so that `coerceNamed_eq_ok_iff` can be used for them. -/
theorem coerce_eq_ok_iff (hschema : schema.InputsDeclaredOnce) {literal : Literal}
    (hvariables : literal.variableNames = []) {type : TypeRef} {argument : String} {position : Position}
    {value : Value} :
    coerce schema reader place literal type argument position = .ok value ↔
      CoercesWith schema (Reads reader) type literal value := by
  induction literal using Literal.structural generalizing type argument position value with
  | unbound name => cases hvariables
  | null =>
    rw [CoercesWith.null_iff]
    simp only [coerce]
    split
    · next hn => simp [hn, eq_comm]
    · next hn => simp [hn]
  | list items ih =>
    cases type with
    | named name nullable =>
      -- only a scalar that the schema defines takes a list; its items are not read one by one
      simp only [coerce]
      exact coerceNamed_eq_ok_iff hschema Literal.noConfusion (fun _ => Literal.noConfusion)
        fun _ hmem => absurd hmem List.not_mem_nil
    | list item nullable =>
      have hitem : ∀ literal ∈ items, ∀ value,
          coerce schema reader place literal item argument position = .ok value ↔
            CoercesWith schema (Reads reader) item literal value :=
        fun literal hmem _ => ih literal hmem (Literal.variableNames_item hvariables literal hmem)
      rw [CoercesWith.list_iff]
      simp only [coerce, coerceItems_eq_map, List.mapM_map]
      constructor
      · intro h
        obtain ⟨values, hvalues, rfl⟩ := ok_of_map h
        exact ⟨values, (mapM_eq_ok_iff hitem).mp hvalues, rfl⟩
      · rintro ⟨values, hvalues, rfl⟩
        exact congrArg (Functor.map Value.list) ((mapM_eq_ok_iff hitem).mpr hvalues)
  | object members ih =>
    refine coerce_eq_ok_iff_of_single ⟨Literal.noConfusion, fun _ => Literal.noConfusion,
      fun _ => Literal.noConfusion⟩ fun name nullable value => ?_
    simp only [coerce, wrapped, coerceMembers_eq_map]
    refine coerceNamed_eq_ok_iff hschema Literal.noConfusion (fun members' h => ?_)
      fun member hmember definition => ?_
    · obtain rfl := Literal.object.inj h
      rw [List.map_map]
      exact (List.map_id _).symm
    · obtain ⟨⟨key, literal⟩, hmem, rfl⟩ := List.mem_map.mp hmember
      have hnone : literal.variableNames = [] := Literal.variableNames_member hvariables _ hmem
      exact ⟨Literal.ne_variable hnone, fun value => ih _ hmem hnone⟩
  | _ => exact coerce_eq_ok_iff_of_simple hschema ⟨Literal.noConfusion, fun _ => Literal.noConfusion,
      fun _ => Literal.noConfusion⟩ fun _ => Literal.noConfusion

end Coercion

end FeedGraph
