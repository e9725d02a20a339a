import Mathlib.Data.List.Chain
import FeedGraph.Plan.OfDocument
import FeedGraph.Proofs.Plan.Defaults
import FeedGraph.Proofs.Schema.Closure

/-!
# Termination: when following defaults comes to an end

An input object that leaves fields out makes coercion read their defaults, and these may leave
fields out in turn. The main statement, `Coercion.coerceAll_ends_or_loops`, says what comes of that,
for any schema and any arguments. Either the arguments are read, or refused, within as many steps as
there are input fields with defaults and one, and more steps change nothing; or no number of steps
is enough, and then the arguments lead to a default that leads back to itself (`Schema.Leads`).

Three relations between what is read with two readers of defaults carry this: that the first reading
ends, that the second is the first if that ends, and that they are the same if either ends. Coercion
respects each of them (`coerce_respects`) where the readers do on the defaults that are consulted,
and not only in one schema, but in two that are the same within the type (`Schema.SameWithin`). So a
reading that does not end consults a default that does not end with one step less, and one that
needs its last step consults a default that needs its last step. Both descents visit only input
fields with defaults, of which there are finitely many (`exists_revisited`).
-/

namespace FeedGraph

/-! ## Descents -/

section

variable {α : Type} {P : Nat → α → Prop} {R : α → α → Prop}

/-- A visit, which is an item with the steps that are left there, and a later one. -/
structure Descends (P : Nat → α → Prop) (R : α → α → Prop) (visit later : Nat × α) : Prop where
  /-- fewer steps are left -/
  lt : later.1 < visit.1
  first : P visit.1 visit.2
  last : P later.1 later.2
  /-- the way from one to the other -/
  way : Relation.TransGen R visit.2 later.2

instance : IsTrans (Nat × α) (Descends P R) where
  trans _ _ _ h h' := ⟨h'.lt.trans h.lt, h.first, h'.last, h.way.trans h'.way⟩

theorem exists_visits {xs : List α}
    (hstep : ∀ steps a, P (steps + 1) a → ∃ b ∈ xs, R a b ∧ P steps b) {steps : Nat} {a : α}
    (h : P steps a) : ∃ visits : List (Nat × α), visits.length = steps ∧
      (∀ visit ∈ visits, visit.2 ∈ xs) ∧ List.IsChain (Descends P R) ((steps, a) :: visits) := by
  induction steps generalizing a with
  | zero => exact ⟨[], rfl, fun _ hmem => absurd hmem List.not_mem_nil, .singleton _⟩
  | succ steps ih =>
    obtain ⟨b, hb, hab, hP⟩ := hstep steps a h
    obtain ⟨visits, hlength, hmem, hchain⟩ := ih hP
    exact ⟨(steps, b) :: visits, congrArg Nat.succ hlength, List.forall_mem_cons.mpr ⟨hb, hmem⟩,
      .cons_cons ⟨Nat.lt_succ_self _, h, hP, .single hab⟩ hchain⟩

/-- What descends through a list for more steps than the list is long comes by one of its items
twice. Both times something is known of it, with different numbers of steps, and it is led to by
itself. This is all that the two descents below have in common. -/
theorem exists_revisited {xs : List α}
    (hstep : ∀ steps a, P (steps + 1) a → ∃ b ∈ xs, R a b ∧ P steps b) {steps : Nat} {a : α}
    (hlength : xs.length < steps) (h : P steps a) :
    ∃ b, Relation.TransGen R a b ∧ Relation.TransGen R b b ∧ ∃ i j, i < j ∧ P i b ∧ P j b := by
  obtain ⟨visits, rfl, hmem, hchain⟩ := exists_visits hstep h
  obtain ⟨hreached, hpairs⟩ := List.pairwise_cons.mp hchain.pairwise
  by_contra hnone
  -- if it came by none twice, it would come by no more of them than the list has
  have hnodup : (visits.map (·.2)).Nodup := by
    refine List.pairwise_map.mpr (hpairs.imp_of_mem ?_)
    rintro ⟨j, b⟩ ⟨i, c⟩ hb _ ⟨hlt, hj, hi, hway⟩ rfl
    exact hnone ⟨b, (hreached _ hb).way, hway, i, j, hlt, hi, hj⟩
  have hsubset : visits.map (·.2) ⊆ xs := by
    intro b hb
    obtain ⟨visit, hvisit, rfl⟩ := List.mem_map.mp hb
    exact hmem visit hvisit
  have hle := hnodup.length_le_of_subset hsubset
  rw [List.length_map] at hle
  exact absurd hle (Nat.not_le.mpr hlength)

end

/-! ## Which defaults lead to which -/

/-- Nothing is supplied for a field, or a variable that has no value. Of fields with one name the
first takes what is supplied, and so any of them may find nothing. -/
def LeavesOut (fields : List InputDef) (members : List (String × Literal)) (field : InputDef) :
    Prop :=
  DeclaredOnce fields → ∀ literal, supplied? members field.name = some literal →
    ∃ name, literal = .variable name

namespace Schema

/-- The input fields whose defaults are needed to read a literal as a value of a type. The
constructors follow `coerce`; which of the fields are left out is `LeavesOut`. -/
inductive Consults (schema : Schema) : TypeRef → Literal → InputDef → Prop where
  /-- those that an item of a list needs -/
  | item {item : TypeRef} {nullable : Bool} {literals : List Literal} {literal : Literal}
      {consulted : InputDef} : literal ∈ literals → Consults schema item literal consulted →
        Consults schema (.list item nullable) (.list literals) consulted
  /-- those that anything else needs as an item -/
  | single {item : TypeRef} {nullable : Bool} {literal : Literal} {consulted : InputDef} :
      (∀ literals, literal ≠ .list literals) → Consults schema item literal consulted →
        Consults schema (.list item nullable) literal consulted
  /-- those that an object leaves out -/
  | omitted {name : String} {nullable : Bool} {definition : TypeDef} {fields : List InputDef}
      {members : List (String × Literal)} {consulted : InputDef} :
      schema.type? name = some definition → definition.kind = .input fields →
        consulted ∈ fields → consulted.default?.isSome = true → LeavesOut fields members consulted →
          Consults schema (.named name nullable) (.object members) consulted
  /-- those that a member of an object needs -/
  | member {name : String} {nullable : Bool} {definition : TypeDef} {fields : List InputDef}
      {members : List (String × Literal)} {field : InputDef} {literal : Literal}
      {consulted : InputDef} :
      schema.type? name = some definition → definition.kind = .input fields →
        field ∈ fields → supplied? members field.name = some literal →
          Consults schema field.type literal consulted →
            Consults schema (.named name nullable) (.object members) consulted

/-- What members need that fill declarations: the defaults of those that they leave out, and what is
needed for the others. -/
def ConsultedBy (schema : Schema) (definitions : List InputDef) (members : List (String × Literal))
    (consulted : InputDef) : Prop :=
  (consulted ∈ definitions ∧ consulted.default?.isSome = true ∧
      LeavesOut definitions members consulted) ∨
    ∃ definition ∈ definitions, ∃ literal, supplied? members definition.name = some literal ∧
      schema.Consults definition.type literal consulted

theorem Consults.of_fields {schema : Schema} {name : String} {nullable : Bool}
    {definition : TypeDef} {fields : List InputDef} {members : List (String × Literal)}
    {consulted : InputDef} (ht : schema.type? name = some definition)
    (hk : definition.kind = .input fields) (h : schema.ConsultedBy fields members consulted) :
    schema.Consults (.named name nullable) (.object members) consulted := by
  rcases h with ⟨hmem, hsome, hleaves⟩ | ⟨field, hmem, literal, hsupplied, h⟩
  · exact .omitted ht hk hmem hsome hleaves
  · exact .member ht hk hmem hsupplied h

/-- What a literal needs are defaults of fields that values of its type hold, so that schemas which
are the same within the type have the same ones. -/
theorem Consults.reached {schema : Schema} {type : TypeRef} {literal : Literal}
    {consulted : InputDef} (h : schema.Consults type literal consulted) :
    Relation.ReflTransGen schema.Holds type.underlying consulted.type.underlying := by
  induction h with
  | item _ _ ih => exact ih
  | single _ _ ih => exact ih
  | omitted ht hk hmem _ _ => exact .single (holds_of_field ht hk hmem)
  | member ht hk hmem _ _ ih => exact .head (holds_of_field ht hk hmem) ih

/-- What a literal needs are defaults of input fields, of which there are `defaultCount`. The
arguments of fields, which have defaults too, are not among them. -/
theorem Consults.mem_defaulted {schema : Schema} {type : TypeRef} {literal : Literal}
    {consulted : InputDef} (h : schema.Consults type literal consulted) :
    consulted ∈ schema.defaulted := by
  induction h with
  | item _ _ ih => exact ih
  | single _ _ ih => exact ih
  | omitted ht hk hmem hsome _ => exact Schema.mem_defaulted ht hk hmem hsome
  | member _ _ _ _ _ ih => exact ih

/-- The default of the first of two declarations needs that of the second. -/
def Leads (schema : Schema) (first second : InputDef) : Prop :=
  ∃ default position, first.default? = some (default, position) ∧
    schema.Consults first.type default.toLiteral second

end Schema

namespace Coercion

/-! ## What coercion respects -/

/-- A result for which the steps were enough: values, or a rejection that is about the request. -/
def Ended {α : Type} (result : Except Rejection α) : Prop :=
  ∀ argument place, result ≠ .error (.endlessDefault argument place)

theorem ended_ok {α : Type} (a : α) : Ended (.ok a : Except Rejection α) := by
  rintro argument place ⟨⟩

theorem ended_bind_iff {α β : Type} {x : Except Rejection α} {f : α → Except Rejection β} :
    Ended (x >>= f) ↔ Ended x ∧ ∀ a, x = .ok a → Ended (f a) := by
  cases x with
  | error rejection =>
    constructor
    · intro h
      exact ⟨fun argument place heq => h argument place (by cases heq; rfl), fun _ => nofun⟩
    · rintro ⟨h, -⟩ argument place heq
      exact h argument place (by cases heq; rfl)
  | ok a =>
    constructor
    · rintro h
      exact ⟨ended_ok a, fun _ heq => Except.ok.inj heq ▸ h⟩
    · rintro ⟨-, h⟩
      exact h a rfl

/-- A relation between results that chains of steps respect if the steps do. Where the first result
ends, it has to be related to itself, so that steps without defaults need not be looked at. -/
structure Respected (R : (α : Type) → Except Rejection α → Except Rejection α → Prop) : Prop where
  refl : ∀ {α : Type} {x : Except Rejection α}, Ended x → R α x x
  bind : ∀ {α β : Type} {x y : Except Rejection α} {f g : α → Except Rejection β},
    R α x y → (∀ a, R β (f a) (g a)) → R β (x >>= f) (y >>= g)

namespace Respected

/-- The first of the three relations, for which the second computation does not count: that the
first result ends. -/
theorem first : Respected fun _ x _ => Ended x where
  refl h := h
  bind hx hf := ended_bind_iff.mpr ⟨hx, fun a _ => hf a⟩

/-- The second of them: more steps do not change what ends. -/
theorem later : Respected fun _ x y => Ended x → y = x where
  refl _ _ := rfl
  bind {_ _ x _ _ _} hx hf h := by
    obtain ⟨hended, h⟩ := ended_bind_iff.mp h
    rw [hx hended]
    cases x with
    | error rejection => rfl
    | ok a => exact hf a (h a rfl)

/-- The third: two results are the same, if either ends. It is for two schemas that allow different
numbers of steps. -/
theorem same : Respected fun _ x y => Ended x ∨ Ended y → x = y where
  refl _ _ := rfl
  bind {_ _ x y _ _} hx hf h := by
    have hxy : x = y := hx (h.imp (fun h => (ended_bind_iff.mp h).1)
      fun h => (ended_bind_iff.mp h).1)
    subst hxy
    cases x with
    | error rejection => rfl
    | ok a => exact hf a h

theorem eq : Respected fun _ x y => x = y where
  refl _ := rfl
  bind hx hf := by rw [hx, funext hf]

end Respected

variable {R : (α : Type) → Except Rejection α → Except Rejection α → Prop} {schema other : Schema}
  {place : Position} {reader reader' : DefaultReader}

theorem Respected.map (hR : Respected R) {α β : Type} {x y : Except Rejection α} (f : α → β)
    (h : R α x y) : R β (f <$> x) (f <$> y) := by
  rw [map_eq_pure_bind, map_eq_pure_bind]
  exact hR.bind h fun a => hR.refl (ended_ok (f a))

theorem Respected.mapM (hR : Respected R) {α β : Type} {f g : α → Except Rejection β} {xs : List α}
    (h : ∀ x ∈ xs, R β (f x) (g x)) : R (List β) (xs.mapM f) (xs.mapM g) := by
  induction xs with
  | nil => exact hR.refl (ended_ok [])
  | cons x rest ih =>
    obtain ⟨hx, hrest⟩ := List.forall_mem_cons.mp h
    rw [List.mapM_cons, List.mapM_cons]
    exact hR.bind hx fun b => hR.bind (ih hrest) fun others => hR.refl (ended_ok (b :: others))

/-! ## Arguments -/

/-- Something that is supplied at a place, as it is read where defaults are read so. -/
def supply (schema : Schema) (place : Position) (reader : DefaultReader)
    (given : Literal × Position) : Supplied :=
  ⟨given.1, given.2, coerce schema reader place given.1⟩

/-- The readers are related on the default of a declaration. -/
def RelatedOn (R : (α : Type) → Except Rejection α → Except Rejection α → Prop)
    (reader reader' : DefaultReader) (definition : InputDef) : Prop :=
  ∀ default position, definition.default? = some (default, position) →
    R Value (reader definition default position) (reader' definition default position)

theorem coerceArgument_none_respects (hR : Respected R) {definition : InputDef}
    (hdefault : RelatedOn R reader reader' definition) :
    R (Option Value) (coerceArgument reader place definition none)
      (coerceArgument reader' place definition none) := by
  cases hd : definition.default? with
  | some default =>
    have hvalue : ∀ reader : DefaultReader, coerceArgument reader place definition none =
        some <$> reader definition default.1 default.2 := by
      intro reader
      simp only [coerceArgument, given?, hd]
      rfl
    rw [hvalue, hvalue]
    exact hR.map some (hdefault default.1 default.2 hd)
  | none =>
    have hvalue : ∀ reader : DefaultReader, coerceArgument reader place definition none =
        if definition.type.nullable then .ok none
        else .error (.missingArgument definition.name place) := by
      intro reader
      simp only [coerceArgument, given?, hd]
      rfl
    rw [hvalue, hvalue]
    refine hR.refl ?_
    split
    · exact ended_ok none
    · rintro argument place ⟨⟩

/-- One argument. Its default is asked for only if nothing is given, or a variable without a
value. -/
theorem coerceArgument_respects (hR : Respected R) {definition : InputDef}
    {given? : Option (Literal × Position)}
    (hdefault : (∀ given, given? = some given → ∃ name, given.1 = .variable name) →
      RelatedOn R reader reader' definition)
    (hread : ∀ given, given? = some given →
      R Value (coerce schema reader place given.1 definition.type definition.name given.2)
        (coerce other reader' place given.1 definition.type definition.name given.2)) :
    R (Option Value)
      (coerceArgument reader place definition (given?.map (supply schema place reader)))
      (coerceArgument reader' place definition (given?.map (supply other place reader'))) := by
  cases given? with
  | none => exact coerceArgument_none_respects hR (hdefault fun _ h => nomatch h)
  | some given =>
    by_cases hvariable : ∃ name, given.1 = .variable name
    · -- a variable that is left out as if it were not there, if it may be
      obtain ⟨literal, position⟩ := given
      obtain ⟨name, rfl⟩ := hvariable
      rw [Option.map_some, Option.map_some, supply, supply, coerceArgument_variable,
        coerceArgument_variable]
      split
      · exact coerceArgument_none_respects hR
          (hdefault fun _ h => ⟨name, by obtain rfl := Option.some.inj h; rfl⟩)
      · exact hR.refl (by rintro argument place ⟨⟩)
    · have hne : ∀ name, given.1 ≠ .variable name := fun name h => hvariable ⟨name, h⟩
      rw [Option.map_some, Option.map_some, coerceArgument_some hne, coerceArgument_some hne]
      exact hR.map some (hread given rfl)

/-- Declared arguments, one after the other. Of those with one name, all but the first find nothing,
so that their defaults are asked for too. What is compared of what is left over are the names, as
literals are read differently on the two sides. -/
theorem coerceDeclared_respects (hR : Respected R) {definitions : List InputDef}
    {given : Members (Literal × Position)} (hnames : (Members.names given).Nodup)
    (hargument : ∀ definition ∈ definitions, R (Option Value)
      (coerceArgument reader place definition
        ((Members.get? given definition.name).map (supply schema place reader)))
      (coerceArgument reader' place definition
        ((Members.get? given definition.name).map (supply other place reader'))))
    (hrepeated : ¬ (definitions.map (·.name)).Nodup → ∀ definition ∈ definitions,
      R (Option Value) (coerceArgument reader place definition none)
        (coerceArgument reader' place definition none)) {values : Members Value} :
    R (Members Value × List String)
      ((fun read => (read.1, Members.names read.2)) <$> coerceDeclared reader place definitions
        (given.map fun pair => (pair.1, supply schema place reader pair.2)) values)
      ((fun read => (read.1, Members.names read.2)) <$> coerceDeclared reader' place definitions
        (given.map fun pair => (pair.1, supply other place reader' pair.2)) values) := by
  induction definitions generalizing given values with
  | nil =>
    have hnames : ∀ schema reader,
        Members.names (given.map fun pair => (pair.1, supply schema place reader pair.2)) =
          Members.names given := fun schema reader => by rw [Members.names, List.map_map]; rfl
    simp only [coerceDeclared, Functor.map, Except.map, hnames]
    exact hR.refl (ended_ok _)
  | cons definition rest ih =>
    obtain ⟨hfirst, hothers⟩ := List.forall_mem_cons.mp hargument
    simp only [coerceDeclared, Members.get?_map, Members.erase_map, map_bind]
    refine hR.bind hfirst fun value? => ih ?_ (fun later hlater => ?_) fun hdup later hlater => ?_
    · rw [Members.erase_eq_filter hnames]
      exact hnames.sublist (List.filter_sublist.map _)
    · by_cases hname : definition.name = later.name
      · rw [← hname, Members.get?_erase_self hnames]
        refine hrepeated (fun hnodup => ?_) later (List.mem_cons_of_mem _ hlater)
        exact (List.nodup_cons.mp hnodup).1 (List.mem_map.mpr ⟨later, hlater, hname.symm⟩)
      · rw [Members.get?_erase_of_ne given hname]
        exact hothers later hlater
    · exact hrepeated (fun hnodup => hdup (List.nodup_cons.mp hnodup).2) later
        (List.mem_cons_of_mem _ hlater)

theorem coerceArguments_error {first : InputDef} {pairs : List (String × Supplied)}
    {rejection : Rejection}
    (h : coerceArgument reader place first
      (Members.get? (Members.ofPairs (pairs.filter (·.1 ≠ "__typename"))) first.name) =
        .error rejection) (rest : List InputDef) (owner : String) :
    coerceArguments reader place (first :: rest) pairs owner = .error rejection := by
  rw [coerceArguments, coerceDeclared, h]
  rfl

theorem coerceArguments_respects (hR : Respected R) {definitions : List InputDef}
    {given : List (String × (Literal × Position))} {owner : String}
    (hread : ∀ definition ∈ definitions, ∀ pair ∈ given,
      (∀ consulted, schema.Consults definition.type pair.2.1 consulted →
        RelatedOn R reader reader' consulted) →
      R Value (coerce schema reader place pair.2.1 definition.type definition.name pair.2.2)
        (coerce other reader' place pair.2.1 definition.type definition.name pair.2.2))
    (hconsulted : ∀ consulted,
      schema.ConsultedBy definitions (given.map fun pair => (pair.1, pair.2.1)) consulted →
        RelatedOn R reader reader' consulted) :
    R (Members Value)
      (coerceArguments reader place definitions
        (given.map fun pair => (pair.1, supply schema place reader pair.2)) owner)
      (coerceArguments reader' place definitions
        (given.map fun pair => (pair.1, supply other place reader' pair.2)) owner) := by
  let counting : Members (Literal × Position) := Members.ofPairs (given.filter (·.1 ≠ "__typename"))
  have hsupplied : ∀ name, name ≠ "__typename" →
      supplied? (given.map fun pair => (pair.1, pair.2.1)) name =
        (Members.get? counting name).map (·.1) := by
    intro name hname
    have hliterals := supplied?_literals
      (given.map fun pair => (pair.1, supply schema place reader pair.2)) hname
    rw [get?_kept_map, Option.map_map, literals, List.map_map] at hliterals
    exact hliterals
  have hrelated : ∀ definition ∈ definitions,
      LeavesOut definitions (given.map fun pair => (pair.1, pair.2.1)) definition →
        RelatedOn R reader reader' definition := by
    intro definition hmem hleaves default position hdefault
    have hsome : definition.default?.isSome = true := by rw [hdefault]; rfl
    exact hconsulted definition (.inl ⟨hmem, hsome, hleaves⟩) default position hdefault
  have hdeclared : R (Members Value × List String)
      ((fun read => (read.1, Members.names read.2)) <$> coerceDeclared reader place definitions
        (counting.map fun pair => (pair.1, supply schema place reader pair.2)) [])
      ((fun read => (read.1, Members.names read.2)) <$> coerceDeclared reader' place definitions
        (counting.map fun pair => (pair.1, supply other place reader' pair.2)) []) := by
    refine coerceDeclared_respects hR (Members.nodup_names_ofPairs _) (fun definition hmem => ?_)
      fun hdup definition hmem => ?_
    · refine coerceArgument_respects hR (fun hvariable => hrelated definition hmem ?_) ?_
      · intro honce literal hliteral
        rw [hsupplied _ (honce.ne_typename definition hmem)] at hliteral
        obtain ⟨pair, hpair, rfl⟩ := Option.map_eq_some_iff.mp hliteral
        exact hvariable pair hpair
      · intro pair hpair
        obtain ⟨hgiven, hname⟩ :=
          List.mem_filter.mp (Members.mem_of_mem_ofPairs (Members.mem_of_get? hpair))
        have hname : definition.name ≠ "__typename" := by simpa using hname
        refine hread definition hmem _ hgiven fun consulted hconsults =>
          hconsulted consulted (.inr ⟨definition, hmem, pair.1, ?_, hconsults⟩)
        rw [hsupplied _ hname, hpair]
        rfl
    · exact coerceArgument_none_respects hR
        (hrelated definition hmem fun honce => absurd honce.distinct hdup)
  have heq : ∀ schema reader, coerceArguments reader place definitions
        (given.map fun pair => (pair.1, supply schema place reader pair.2)) owner =
      ((fun read => (read.1, Members.names read.2)) <$> coerceDeclared reader place definitions
        (counting.map fun pair => (pair.1, supply schema place reader pair.2)) []) >>= fun read =>
          if read.2.isEmpty then .ok read.1
          else .error (.strayArguments read.2 owner place) := by
    intro schema reader
    rw [← kept_map, bind_map_left]
    refine bind_congr fun read => ?_
    rw [Members.names, List.isEmpty_map]
    rfl
  rw [heq, heq]
  refine hR.bind hdeclared fun read => hR.refl ?_
  split
  · exact ended_ok read.1
  · rintro argument place ⟨⟩

/-! ## Literals -/

theorem coerceNamed_respects (hR : Respected R) {literal : Literal}
    {readings readings' : List (String × (Literal × Reading))} {name argument : String}
    {position : Position} (htype : other.type? name = schema.type? name)
    (h : ∀ definition fields members, schema.type? name = some definition →
      definition.kind = .input fields → literal = .object members →
        R (Members Value)
          (coerceArguments reader place fields (readings.map fun (n, l, reading) =>
            (n, ⟨l, position, reading⟩)) argument)
          (coerceArguments reader' place fields (readings'.map fun (n, l, reading) =>
            (n, ⟨l, position, reading⟩)) argument)) :
    R Value (coerceNamed schema reader place literal readings name argument position)
      (coerceNamed other reader' place literal readings' name argument position) := by
  have hmismatch : Ended (.error (.mismatch argument name literal.kind position) :
      Except Rejection Value) := by
    rintro _ _ ⟨⟩
  rw [coerceNamed.eq_def, coerceNamed.eq_def, htype]
  cases ht : schema.type? name with
  | none => exact hR.refl hmismatch
  | some definition =>
    dsimp only
    cases hkind : definition.kind with
    | scalar =>
      refine hR.refl ?_
      dsimp only
      split
      · split
        · exact ended_ok _
        · exact hmismatch
      · rw [coerceOpaque.eq_def]
        split
        · exact ended_ok _
        · rintro _ _ ⟨⟩
    | enumeration members =>
      cases literal with
      | enumeration member =>
        refine hR.refl ?_
        dsimp only
        split
        · exact ended_ok _
        · exact hmismatch
      | _ => exact hR.refl hmismatch
    | input fields =>
      cases literal with
      | object members => exact hR.map Value.object (h definition fields members ht hkind rfl)
      | _ => exact hR.refl hmismatch
    | _ => exact hR.refl hmismatch

/-- The induction is on the type, of which only the underlying name counts for a literal that is not
a list. -/
theorem coerce_respects_of_single (hR : Respected R) {literal : Literal} (hsingle : Single literal)
    {argument : String} {position : Position}
    {type : TypeRef}
    (hnamed : ∀ nullable,
      (∀ consulted, schema.Consults (.named type.underlying nullable) literal consulted →
        RelatedOn R reader reader' consulted) →
      R Value (coerce schema reader place literal (.named type.underlying nullable) argument position)
        (coerce other reader' place literal (.named type.underlying nullable) argument position))
    (h : ∀ consulted, schema.Consults type literal consulted →
      RelatedOn R reader reader' consulted) :
    R Value (coerce schema reader place literal type argument position)
      (coerce other reader' place literal type argument position) := by
  induction type with
  | named name nullable => exact hnamed nullable h
  | list item nullable ih =>
    rw [coerce_list_of_single hsingle, coerce_list_of_single hsingle]
    exact hR.map (fun value => Value.list [value]) (ih hnamed fun consulted hconsults =>
      h consulted (.single hsingle.2.2 hconsults))

/-- Two readers that are related on the defaults that a literal consults read it alike, in two
schemas that are the same within its type. The induction is on the literal, along `Consults`; all
that is shown about termination in this module are instances of this. -/
theorem coerce_respects (hR : Respected R) {literal : Literal} {type : TypeRef} {argument : String}
    {position : Position} (hsame : schema.SameWithin other type.underlying)
    (h : ∀ consulted, schema.Consults type literal consulted →
      RelatedOn R reader reader' consulted) :
    R Value (coerce schema reader place literal type argument position)
      (coerce other reader' place literal type argument position) := by
  induction literal using Literal.structural generalizing type argument position with
  | unbound name =>
    refine hR.refl ?_
    simp only [coerce]
    split
    · exact ended_ok Value.null
    · rintro _ _ ⟨⟩
  | null =>
    refine hR.refl ?_
    simp only [coerce]
    split
    · exact ended_ok Value.null
    · rintro _ _ ⟨⟩
  | list items ih =>
    cases type with
    | named name nullable =>
      exact coerceNamed_respects hR hsame.type_eq (by rintro _ _ _ _ _ ⟨⟩)
    | list item nullable =>
      simp only [coerce, coerceItems_eq_map, List.mapM_map]
      exact hR.map Value.list (hR.mapM fun literal hmem =>
        ih literal hmem hsame fun consulted hconsults => h consulted (.item hmem hconsults))
  | object members ih =>
    refine coerce_respects_of_single hR ⟨Literal.noConfusion, fun _ => Literal.noConfusion,
      fun _ => Literal.noConfusion⟩ (fun nullable h => ?_) h
    simp only [coerce, wrapped, coerceMembers_eq_map]
    refine coerceNamed_respects hR hsame.type_eq fun definition fields members' ht hkind heq => ?_
    obtain rfl := Literal.object.inj heq
    -- the members as they are given, at the place of the object
    let given : List (String × (Literal × Position)) :=
      members.map fun member => (member.1, (member.2, position))
    have hliterals : given.map (fun pair => (pair.1, pair.2.1)) = members := by
      rw [List.map_map]
      exact List.map_id _
    have hsupply : ∀ schema reader, ((members.map fun member =>
        (member.1, member.2, coerce schema reader place member.2)).map fun (n, l, reading) =>
          (n, Supplied.mk l position reading)) =
        given.map fun pair => (pair.1, supply schema place reader pair.2) := by
      intro schema reader
      rw [List.map_map, List.map_map]
      rfl
    rw [hsupply, hsupply]
    refine coerceArguments_respects hR (fun field hfield pair hpair hpairs => ?_) ?_
    · obtain ⟨member, hmember, rfl⟩ := List.mem_map.mp hpair
      exact ih member hmember (hsame.reached (.single (Schema.holds_of_field ht hkind hfield))) hpairs
    · intro consulted hconsults
      rw [hliterals] at hconsults
      exact h consulted (.of_fields ht hkind hconsults)
  | _ =>
    refine coerce_respects_of_single hR ⟨Literal.noConfusion, fun _ => Literal.noConfusion,
      fun _ => Literal.noConfusion⟩ (fun nullable _ => ?_) h
    simp only [coerce, wrapped]
    exact coerceNamed_respects hR hsame.type_eq (by rintro _ _ _ _ _ ⟨⟩)

/-! ## Steps -/

/-- The default of a declaration is read to its end within so many steps. -/
abbrev EndsWithin (schema : Schema) (place : Position) (steps : Nat) (definition : InputDef) : Prop :=
  RelatedOn (fun _ x _ => Ended x) (readDefault schema place steps) (readDefault schema place steps)
    definition

theorem endsWithin_iff {steps : Nat} {definition : InputDef} {default : Value} {position : Position}
    (hdefault : definition.default? = some (default, position)) :
    EndsWithin schema place steps definition ↔
      Ended (readDefault schema place steps definition default position) := by
  constructor
  · intro h
    exact h default position hdefault
  · intro h default' position' hdefault'
    rw [hdefault] at hdefault'
    obtain ⟨rfl, rfl⟩ := Prod.mk.inj (Option.some.inj hdefault')
    exact h

/-- What ends is not changed by more steps: `coerce_respects` for `Respected.later`, by induction on
the fewer steps. -/
theorem readDefault_of_ended {steps more : Nat} (hle : steps ≤ more) {definition : InputDef}
    {default : Value} {position : Position}
    (h : Ended (readDefault schema place steps definition default position)) :
    readDefault schema place more definition default position =
      readDefault schema place steps definition default position := by
  induction steps generalizing more definition default position with
  | zero => exact absurd rfl (h definition.name position)
  | succ steps ih =>
    obtain ⟨more, rfl⟩ := Nat.exists_eq_succ_of_ne_zero (Nat.ne_zero_of_lt hle)
    exact coerce_respects .later .refl (fun _ _ _ _ _ => ih (Nat.le_of_succ_le_succ hle)) h

theorem EndsWithin.mono {steps more : Nat} (hle : steps ≤ more) {definition : InputDef}
    (h : EndsWithin schema place steps definition) : EndsWithin schema place more definition := by
  intro default position hdefault
  have hended := h default position hdefault
  rwa [readDefault_of_ended hle hended]

/-- The descent for a reading that never ends. If all defaults that are needed ended with one step
less, then by `coerce_respects` for `Respected.first` so would this one. -/
theorem exists_of_not_endsWithin (steps : Nat) (definition : InputDef)
    (h : ¬EndsWithin schema place (steps + 1) definition) :
    ∃ consulted ∈ schema.defaulted, schema.Leads definition consulted ∧
      ¬EndsWithin schema place steps consulted := by
  by_contra hnone
  refine h fun default position hdefault => ?_
  have hends : ∀ consulted, schema.Consults definition.type default.toLiteral consulted →
      EndsWithin schema place steps consulted := by
    intro consulted hconsults
    by_contra hnot
    exact hnone ⟨consulted, hconsults.mem_defaulted, ⟨default, position, hdefault, hconsults⟩, hnot⟩
  exact coerce_respects .first .refl hends

/-- A default ends with its last step and not without. -/
def NeedsLast (schema : Schema) (place : Position) (steps : Nat) (definition : InputDef) : Prop :=
  EndsWithin schema place (steps + 1) definition ∧ ¬EndsWithin schema place steps definition

/-- The descent for a reading that ends late: a default that needs its last step needs one that
needs its last step, which is one less. -/
theorem exists_of_needsLast (steps : Nat) (definition : InputDef)
    (h : NeedsLast schema place (steps + 1) definition) :
    ∃ consulted ∈ schema.defaulted, schema.Leads definition consulted ∧
      NeedsLast schema place steps consulted := by
  by_contra hnone
  refine h.2 fun default position hdefault => ?_
  -- otherwise one step less would make no difference on what is consulted
  have hsame : Ended (readDefault schema place (steps + 1) definition default position) ∨
      Ended (readDefault schema place (steps + 2) definition default position) →
      readDefault schema place (steps + 1) definition default position =
        readDefault schema place (steps + 2) definition default position := by
    refine coerce_respects .same .refl fun consulted hconsults default' position' hdefault' hended => ?_
    refine (readDefault_of_ended (Nat.le_succ steps) ?_).symm
    rcases hended with hended | hended
    · exact hended
    · by_contra hnot
      exact hnone ⟨consulted, hconsults.mem_defaulted, ⟨default, position, hdefault, hconsults⟩,
        (endsWithin_iff hdefault').mpr hended, fun h => hnot ((endsWithin_iff hdefault').mp h)⟩
  have hended := (endsWithin_iff hdefault).mp h.1
  rwa [hsame (.inr hended)]

/-- No default needs more steps than one for itself and one for each input field with a default.
Otherwise the descent would come by one field twice, with different numbers of steps: with the fewer
of them its default ends, and so it cannot need the last of the others. -/
theorem not_needsLast {steps : Nat} (hsteps : defaultCount schema < steps) (definition : InputDef) :
    ¬NeedsLast schema place steps definition := by
  intro h
  rw [defaultCount_eq] at hsteps
  obtain ⟨revisited, -, -, i, j, hlt, hi, hj⟩ := exists_revisited exists_of_needsLast hsteps h
  exact hj.2 (hi.1.mono hlt)

theorem EndsWithin.enough {steps : Nat} {definition : InputDef}
    (h : EndsWithin schema place steps definition) :
    EndsWithin schema place (defaultCount schema + 1) definition := by
  induction steps with
  | zero => exact h.mono (Nat.zero_le _)
  | succ steps ih =>
    by_cases hle : steps ≤ defaultCount schema
    · exact h.mono (Nat.succ_le_succ hle)
    · refine ih ?_
      by_contra hnot
      exact not_needsLast (Nat.not_le.mp hle) definition ⟨h, hnot⟩

/-! ## The arguments of a field -/

/-- The arguments of a field are read alike, with two numbers of steps and in two schemas that are
the same within the types of the arguments, where the defaults are that they consult. -/
theorem argumentsWithin_respects_of_same (hR : Respected R) {steps more : Nat}
    {bindings : Members Value} {field : String} {definitions : List InputDef}
    {arguments : List Argument}
    (hsame : ∀ definition ∈ definitions, schema.SameWithin other definition.type.underlying)
    (h : ∀ consulted, schema.ConsultedBy definitions (boundLiterals bindings arguments) consulted →
      RelatedOn R (readDefault schema place steps) (readDefault other place more) consulted) :
    R (Members Value) (argumentsWithin steps schema bindings field place definitions arguments)
      (argumentsWithin more other bindings field place definitions arguments) := by
  let given : List (String × (Literal × Position)) :=
    arguments.map fun argument => (argument.name, (argument.value.bind bindings, argument.position))
  have hliterals : given.map (fun pair => (pair.1, pair.2.1)) = boundLiterals bindings arguments := by
    rw [List.map_map]
    rfl
  have hwithin : ∀ schema steps,
      argumentsWithin steps schema bindings field place definitions arguments =
        coerceArguments (readDefault schema place steps) place definitions
          (given.map fun pair =>
            (pair.1, supply schema place (readDefault schema place steps) pair.2)) field := by
    intro schema steps
    rw [List.map_map]
    rfl
  rw [hwithin, hwithin]
  refine coerceArguments_respects hR
    (fun definition hmem _ _ => coerce_respects hR (hsame definition hmem)) ?_
  rw [hliterals]
  exact h

theorem argumentsWithin_respects (hR : Respected R) {steps more : Nat} {bindings : Members Value}
    {field : String} {definitions : List InputDef} {arguments : List Argument}
    (h : ∀ consulted, schema.ConsultedBy definitions (boundLiterals bindings arguments) consulted →
      RelatedOn R (readDefault schema place steps) (readDefault schema place more) consulted) :
    R (Members Value) (argumentsWithin steps schema bindings field place definitions arguments)
      (argumentsWithin more schema bindings field place definitions arguments) :=
  argumentsWithin_respects_of_same hR (fun _ _ => .refl) h

theorem exists_of_not_ended {steps : Nat} {bindings : Members Value} {field : String}
    {definitions : List InputDef} {arguments : List Argument}
    (h : ¬Ended (argumentsWithin steps schema bindings field place definitions arguments)) :
    ∃ consulted, schema.ConsultedBy definitions (boundLiterals bindings arguments) consulted ∧
      ¬EndsWithin schema place steps consulted := by
  by_contra hnone
  have hends : ∀ consulted,
      schema.ConsultedBy definitions (boundLiterals bindings arguments) consulted →
        EndsWithin schema place steps consulted := by
    intro consulted hconsults
    by_contra hnot
    exact hnone ⟨consulted, hconsults, hnot⟩
  exact h (argumentsWithin_respects .first hends)

/-- The arguments of a field are read to their end within as many steps as there are input fields
with defaults and one, and more steps change nothing; or they do not end, however many steps there
are, and then they need a default from which a way leads to one that leads back to itself. -/
theorem coerceAll_ends_or_loops (schema : Schema) (bindings : Members Value) (field : String)
    (place : Position) (definitions : List InputDef) (arguments : List Argument) :
    (Ended (coerceAll schema bindings field place definitions arguments) ∧
      ∀ steps, defaultCount schema < steps →
        argumentsWithin steps schema bindings field place definitions arguments =
          coerceAll schema bindings field place definitions arguments) ∨
    ((∀ steps, ¬Ended (argumentsWithin steps schema bindings field place definitions arguments)) ∧
      ∃ first last, schema.ConsultedBy definitions (boundLiterals bindings arguments) first ∧
        Relation.TransGen schema.Leads first last ∧ Relation.TransGen schema.Leads last last) := by
  have hlater : ∀ {steps more : Nat}, steps ≤ more →
      Ended (argumentsWithin steps schema bindings field place definitions arguments) →
        argumentsWithin more schema bindings field place definitions arguments =
          argumentsWithin steps schema bindings field place definitions arguments :=
    fun hle => argumentsWithin_respects .later fun _ _ _ _ _ => readDefault_of_ended hle
  by_cases hended : Ended (coerceAll schema bindings field place definitions arguments)
  · exact .inl ⟨hended, fun steps hsteps => hlater hsteps hended⟩
  · refine .inr ⟨fun steps hsteps => hended ?_, ?_⟩
    · rcases Nat.le_total steps (defaultCount schema + 1) with hle | hle
      · rwa [coerceAll, hlater hle hsteps]
      · -- whatever ends at all ends within the limit, so that further steps make no difference
        have hsame : Ended (coerceAll schema bindings field place definitions arguments) ∨
            Ended (argumentsWithin steps schema bindings field place definitions arguments) →
            coerceAll schema bindings field place definitions arguments =
              argumentsWithin steps schema bindings field place definitions arguments := by
          refine argumentsWithin_respects .same fun consulted _ default position hdefault hended => ?_
          refine (readDefault_of_ended hle ?_).symm
          rcases hended with hended | hended
          · exact hended
          · exact (endsWithin_iff hdefault).mp ((endsWithin_iff hdefault).mpr hended).enough
        rwa [hsame (.inr hsteps)]
    · obtain ⟨first, hfirst, hnot⟩ := exists_of_not_ended hended
      have hlength : schema.defaulted.length < defaultCount schema + 1 := by
        rw [defaultCount_eq]
        exact Nat.lt_succ_self _
      obtain ⟨last, hway, hloop, -⟩ :=
        exists_revisited (P := fun steps definition => ¬EndsWithin schema place steps definition)
          exists_of_not_endsWithin hlength hnot
      exact ⟨first, last, hfirst, hway, hloop⟩

end Coercion

/-! ## Folders -/

namespace Folders

open Coercion

/-- A folder that is left out of a folder is the empty one, which leaves its folder out, too. -/
def inside : InputDef := ⟨"inside", .named "Folder" true, some (.object [], ⟨1, 33⟩)⟩

/-- A folder has a size, which has to be given. -/
def folder : TypeDef :=
  ⟨"Folder", none, .input [inside, ⟨"size", .named "Int" false, none⟩]⟩

def definitions : List InputDef := [⟨"in", .named "Folder" true, none⟩]

def root : TypeDef := ⟨"Query", none, .object [⟨"find", .named "Int" true, none, definitions⟩]⟩

def schema : Schema := { Schema.initial with types := Schema.initial.types ++ [folder, root] }

def argument : Argument := ⟨"in", .object [], ⟨1, 12⟩⟩

def document : Document :=
  ⟨.anonymous ⟨.query, [], [.field none "find" [argument] [] ⟨1, 3⟩], ⟨1, 1⟩⟩, []⟩

/-- The empty folder is read only after the folder inside it. -/
theorem coerce_empty {reader : DefaultReader} {rejection : Rejection}
    (h : reader inside (.object []) ⟨1, 33⟩ = .error rejection) (place : Position)
    (argument : String) (position : Position) :
    coerce schema reader place (.object []) inside.type argument position = .error rejection := by
  have hfields : coerce schema reader place (.object []) inside.type argument position =
      Value.object <$>
        coerceArguments reader place [inside, ⟨"size", .named "Int" false, none⟩] [] argument := rfl
  have hinside : coerceArgument reader place inside none =
      some <$> reader inside (.object []) ⟨1, 33⟩ := rfl
  rw [h] at hinside
  rw [hfields, coerceArguments_error hinside]
  rfl

/-- The default of the inner folder needs itself: by induction on the steps, the one at which they
end is the reason for all of them. -/
theorem readDefault_inside (place : Position) (steps : Nat) :
    readDefault schema place steps inside (.object []) ⟨1, 33⟩ =
      .error (.endlessDefault "inside" ⟨1, 33⟩) := by
  induction steps with
  | zero => rfl
  | succ steps ih => exact coerce_empty ih place "inside" ⟨1, 33⟩

/-- The schema is a good one, but that the empty folder lacks a size is never noticed: the folder
inside it comes first, and no number of steps is enough for that. -/
theorem find_never_ends :
    Schema.ofDefinitions [.type folder, .type root] = .ok schema ∧
    Plan.ofDocument schema document none [] 16 = .error (.endlessDefault "inside" ⟨1, 33⟩) ∧
    ∀ steps, argumentsWithin steps schema [] "find" ⟨1, 3⟩ definitions [argument] =
      .error (.endlessDefault "inside" ⟨1, 33⟩) := by
  refine ⟨by rfl, by with_unfolding_all rfl, fun steps => ?_⟩
  have hfirst : coerceArgument (readDefault schema ⟨1, 3⟩ steps) ⟨1, 3⟩
      ⟨"in", .named "Folder" true, none⟩ (some ⟨.object [], ⟨1, 12⟩,
        coerce schema (readDefault schema ⟨1, 3⟩ steps) ⟨1, 3⟩ (.object [])⟩) =
      some <$> coerce schema (readDefault schema ⟨1, 3⟩ steps) ⟨1, 3⟩ (.object []) inside.type "in"
        ⟨1, 12⟩ := rfl
  rw [coerce_empty (readDefault_inside ⟨1, 3⟩ steps)] at hfirst
  exact coerceArguments_error hfirst [] "find"

end Folders

end FeedGraph
