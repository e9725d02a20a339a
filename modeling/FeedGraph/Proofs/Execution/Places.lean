import FeedGraph.Proofs.Execution.Completions
import FeedGraph.Proofs.Execution.Evaluation

/-!
# Places: where values belong in the data

A place is a field of an object or an item of a list that an execution reaches. It is known by its
path, and it has a type, which may allow null or not. `Evaluation.objectPlaces` lists the places
that are reached when the outcomes of inquiries are given.

What was resolved for a place may be nothing that its type has room for. `Place.Fails` says so, and
what the reason is. It looks at one place only, and knows nothing of completions: which errors there
have to be is said with it, and not with what produces them.

On a path there may be several places where null is allowed. `Nearest` is the last of them, the one
that is nearest to where the path leads.
-/

namespace FeedGraph

/-! ## Places -/

/-- A field of an object or an item of a list that is reached, with what was resolved for it. An
item has no resolver of its own; its value is what the list has at its index, and its site is that
of the field. -/
structure Place where
  /-- where it is in the data -/
  path : Path
  /-- the type it is declared to have -/
  type : TypeRef
  /-- the field, or the field in whose value the list is -/
  site : Executor.Site
  /-- what was resolved for it -/
  resolved : Outcome

/-- Whether the values of a place have no parts, so that nothing in them is a place. -/
def Place.IsLeaf (schema : Schema) (place : Place) : Prop :=
  ∃ name nullable, place.type = .named name nullable ∧ schema.isLeaf name = true

/-- An outcome is none that a type has room for, and this is why: the resolver has a fault, or it
has null where null is not allowed, no list where there should be one, or no object of a type that
has parts. Values of types without parts always fit, and the items of a list and the members of an
object are places of their own. -/
inductive Misfit (schema : Schema) (site : Executor.Site) : TypeRef → Outcome → FailureReason → Prop
    where
  /-- there is no value -/
  | fault (type : TypeRef) (cause : Fault) : Misfit schema site type (.error cause) (.fault cause)
  /-- the value is null -/
  | null {type : TypeRef} : type.nullable = false →
      Misfit schema site type (.ok .null) (.null site.type site.field)
  /-- the value is no list -/
  | notList {item : TypeRef} {nullable : Bool} {value : Json} : value ≠ .null →
      (∀ items, value ≠ .array items) →
        Misfit schema site (.list item nullable) (.ok value)
          (.notList site.type site.field value.kind)
  /-- the value is no object -/
  | notObject {name : String} {nullable : Bool} {value : Json} : schema.isLeaf name = false →
      value ≠ .null → (∀ members, value ≠ .object members) →
        Misfit schema site (.named name nullable) (.ok value)
          (.notObject name site.type site.field value.kind)

/-- What was resolved for a place does not fit. The name of a type is not resolved, but known, and
nothing can be wrong with it. -/
def Place.Fails (schema : Schema) (place : Place) (reason : FailureReason) : Prop :=
  place.site.field ≠ PlannedField.typename ∧
    Misfit schema place.site place.type place.resolved reason

/-- The failure at a place, if this is the reason. It points at the field. -/
def Place.failure (place : Place) (reason : FailureReason) : Failure :=
  ⟨reason, place.site.position, place.path⟩

section

variable {schema : Schema} {site : Executor.Site} {type : TypeRef} {resolved : Outcome}
  {first second : FailureReason}

/-- The four ways in which an outcome may not fit exclude each other, so a place that fails does so
for one reason: each looks at another form of type and outcome. -/
theorem Misfit.unique (h : Misfit schema site type resolved first)
    (h' : Misfit schema site type resolved second) : first = second := by
  cases h with
  | fault =>
    cases h' with
    | fault => rfl
  | null hnullable =>
    cases h' with
    | null _ => rfl
    | notList hnull _ => exact absurd rfl hnull
    | notObject _ hnull _ => exact absurd rfl hnull
  | notList hnull hlist =>
    cases h' with
    | null _ => exact absurd rfl hnull
    | notList _ _ => rfl
  | notObject hleaf hnull hobject =>
    cases h' with
    | null _ => exact absurd rfl hnull
    | notObject _ _ _ => rfl

/-- Null fits where it is allowed. -/
theorem not_misfit_null (hnullable : type.nullable = true) :
    ¬Misfit schema site type (.ok .null) first := by
  intro h
  cases h with
  | null hnot => exact absurd hnullable (by rw [hnot]; exact Bool.false_ne_true)
  | notList hnull _ => exact hnull rfl
  | notObject _ hnull _ => exact hnull rfl

/-- A list fits where there should be one, whatever its items are. -/
theorem not_misfit_array {item : TypeRef} {nullable : Bool} {items : List Json} :
    ¬Misfit schema site (.list item nullable) (.ok (.array items)) first := by
  intro h
  cases h with
  | notList _ hlist => exact hlist items rfl

/-- Any value but null fits a type without parts. -/
theorem not_misfit_leaf {name : String} {nullable : Bool} {value : Json} (hnull : value ≠ .null)
    (hleaf : schema.isLeaf name = true) :
    ¬Misfit schema site (.named name nullable) (.ok value) first := by
  intro h
  cases h with
  | null _ => exact hnull rfl
  | notObject hnot _ _ =>
    rw [hleaf] at hnot
    cases hnot

/-- An object fits any type, whatever its members are. -/
theorem not_misfit_object {name : String} {nullable : Bool} {members : List (String × Json)} :
    ¬Misfit schema site (.named name nullable) (.ok (.object members)) first := by
  intro h
  cases h with
  | notObject _ _ hobject => exact hobject members rfl

end

namespace Evaluation

variable (schema : Schema) (outcome : Inquiry → Outcome)

/-- The places in a value, in the order in which they are completed. Those in what is selected of an
object are a parameter, because the recursion is on types here and on fields in `fieldPlaces`. -/
def placesBelow (site : Executor.Site) (select : String → Json → Path → List Place) :
    TypeRef → Json → Path → List Place
  | .list item _, .array items, path =>
    items.zipIdx.flatMap fun (value, index) =>
      ⟨path ++ [.index index], item, site, .ok value⟩ ::
        placesBelow site select item value (path ++ [.index index])
  | .named name _, .object members, path =>
    if schema.isLeaf name then [] else select name (.object members) path
  | _, _, _ => []

mutual

/-- The place of a field and the places in its value. A field without a value has its own place
only; whatever would have been in the value is not reached. -/
def fieldPlaces (type : String) (parent : Json) (path : Path) : PlannedField → List Place
  | ⟨alias?, name, typeRef, arguments, selected, position⟩ =>
    let here := path ++ [.field (alias?.getD name)]
    let site : Executor.Site := ⟨type, name, position⟩
    if name = PlannedField.typename then [⟨here, typeRef, site, .ok (.string type)⟩]
    else
      match outcome ⟨type, parent, here, ⟨alias?, name, typeRef, arguments, selected, position⟩⟩ with
      | .ok value =>
        ⟨here, typeRef, site, .ok value⟩ ::
          placesBelow schema site
            (fun typeName object path => fieldsPlaces typeName object path selected)
            typeRef value here
      | .error fault => [⟨here, typeRef, site, .error fault⟩]

/-- The places of some fields and the places in their values. -/
def fieldsPlaces (type : String) (parent : Json) (path : Path) : List PlannedField → List Place
  | [] => []
  | first :: rest => fieldPlaces type parent path first ++ fieldsPlaces type parent path rest

end

/-- The places in an object of which something is selected, one field after the other. -/
def objectPlaces (selected : List PlannedField) (type : String) (parent : Json) (path : Path) :
    List Place :=
  selected.flatMap (fieldPlaces schema outcome type parent path)

variable {schema outcome}

theorem fieldsPlaces_eq (type : String) (parent : Json) (path : Path)
    (selected : List PlannedField) :
    fieldsPlaces schema outcome type parent path selected =
      objectPlaces schema outcome selected type parent path := by
  induction selected with
  | nil => rw [fieldsPlaces, objectPlaces, List.flatMap_nil]
  | cons first rest ih => rw [fieldsPlaces, ih, objectPlaces, objectPlaces, List.flatMap_cons]

theorem fieldPlaces_eq (type : String) (parent : Json) (path : Path) (asked : PlannedField) :
    fieldPlaces schema outcome type parent path asked =
      let here := path ++ [.field asked.output]
      let site : Executor.Site := ⟨type, asked.name, asked.position⟩
      if asked.name = PlannedField.typename then [⟨here, asked.type, site, .ok (.string type)⟩]
      else
        match outcome ⟨type, parent, here, asked⟩ with
        | .ok value =>
          ⟨here, asked.type, site, .ok value⟩ ::
            placesBelow schema site (objectPlaces schema outcome asked.fields) asked.type value here
        | .error fault => [⟨here, asked.type, site, .error fault⟩] := by
  obtain ⟨alias?, name, typeRef, arguments, selected, position⟩ := asked
  rw [fieldPlaces]
  simp only [fieldsPlaces_eq]
  rfl

section

variable {site : Executor.Site} {select : String → Json → Path → List Place} {item : TypeRef}
  {name : String} {nullable : Bool} {value : Json} {path : Path}

theorem placesBelow_null (type : TypeRef) :
    placesBelow schema site select type .null path = [] := by
  cases type <;> rfl

theorem placesBelow_array (items : List Json) :
    placesBelow schema site select (.list item nullable) (.array items) path =
      items.zipIdx.flatMap fun part =>
        ⟨path ++ [.index part.2], item, site, .ok part.1⟩ ::
          placesBelow schema site select item part.1 (path ++ [.index part.2]) := by
  rw [placesBelow]

theorem placesBelow_notList (hlist : ∀ items, value ≠ .array items) :
    placesBelow schema site select (.list item nullable) value path = [] := by
  cases value with
  | array items => exact absurd rfl (hlist items)
  | _ => rfl

theorem placesBelow_leaf (hleaf : schema.isLeaf name = true) :
    placesBelow schema site select (.named name nullable) value path = [] := by
  cases value with
  | object members => simp [placesBelow, hleaf]
  | _ => rfl

theorem placesBelow_object (hleaf : schema.isLeaf name = false) (members : List (String × Json)) :
    placesBelow schema site select (.named name nullable) (.object members) path =
      select name (.object members) path := by
  simp [placesBelow, hleaf]

theorem placesBelow_notObject (hobject : ∀ members, value ≠ .object members) :
    placesBelow schema site select (.named name nullable) value path = [] := by
  cases value with
  | object members => exact absurd rfl (hobject members)
  | _ => rfl

end

end Evaluation

/-! ## The nearest place where null is allowed -/

/-- There is a place on a path where null is allowed: a failure at the end of the path is stopped
somewhere. -/
def NullableOn (places : List Place) (path : Path) : Prop :=
  ∃ place ∈ places, place.type.nullable = true ∧ place.path <+: path

/-- There is a place on a path where null is allowed, and no such place on the path is nearer to its
end. This is the place that a failure at the end of the path makes null. -/
structure Nearest (places : List Place) (path nearest : Path) : Prop where
  /-- it is a place where null is allowed -/
  nullable : ∃ place ∈ places, place.type.nullable = true ∧ place.path = nearest
  /-- it is on the path -/
  on : nearest <+: path
  /-- others on the path are not nearer -/
  last : ∀ place ∈ places, place.type.nullable = true → place.path <+: path →
    place.path <+: nearest

namespace Nearest

variable {places : List Place} {path first second : Path}

/-- There is no more than one: of two, either is no nearer than the other, and both are on one
path. -/
theorem unique (h : Nearest places path first) (h' : Nearest places path second) :
    first = second := by
  obtain ⟨place, hmem, hnullable, rfl⟩ := h.nullable
  obtain ⟨other, hmem', hnullable', rfl⟩ := h'.nullable
  have hle := (h'.last place hmem hnullable h.on).length_le
  have hge := (h.last other hmem' hnullable' h'.on).length_le
  exact (h'.last place hmem hnullable h.on).eq_of_length (Nat.le_antisymm hle hge)

end Nearest

/-- If there is a place on a path where null is allowed, there is a nearest one, by induction on the
places: a further one is nearer than the nearest so far, or it is not. -/
theorem NullableOn.exists_nearest {places : List Place} {path : Path}
    (h : NullableOn places path) : ∃ nearest, Nearest places path nearest := by
  induction places with
  | nil =>
    obtain ⟨place, hmem, -⟩ := h
    cases hmem
  | cons place rest ih =>
    by_cases hrest : NullableOn rest path
    · obtain ⟨nearest, hnearest⟩ := ih hrest
      obtain ⟨other, hother, hnullable, hpath⟩ := hnearest.nullable
      by_cases hplace : place.type.nullable = true ∧ place.path <+: path ∧
          ¬place.path <+: nearest
      · -- both are on the path, so that the other one is on the way to this one
        obtain ⟨hnull, hon, hnot⟩ := hplace
        have hbefore := (List.prefix_or_prefix_of_prefix hon hnearest.on).resolve_left hnot
        refine ⟨place.path, ⟨place, List.mem_cons_self, hnull, rfl⟩, hon, ?_⟩
        intro one hone hone_null hone_on
        rcases List.mem_cons.mp hone with rfl | hone
        · exact List.prefix_refl _
        · exact (hnearest.last one hone hone_null hone_on).trans hbefore
      · refine ⟨nearest, ⟨other, List.mem_cons_of_mem _ hother, hnullable, hpath⟩, hnearest.on, ?_⟩
        intro one hone hone_null hone_on
        rcases List.mem_cons.mp hone with rfl | hone
        · exact Classical.not_not.mp fun hnot => hplace ⟨hone_null, hone_on, hnot⟩
        · exact hnearest.last one hone hone_null hone_on
    · obtain ⟨one, hone, hnull, hon⟩ := h
      rcases List.mem_cons.mp hone with rfl | hone
      · refine ⟨one.path, ⟨one, List.mem_cons_self, hnull, rfl⟩, hon, ?_⟩
        intro other hother hother_null hother_on
        rcases List.mem_cons.mp hother with rfl | hother
        · exact List.prefix_refl _
        · exact absurd ⟨other, hother, hother_null, hother_on⟩ hrest
      · exact absurd ⟨one, hone, hnull, hon⟩ hrest

/-! ## One place, alone and around others -/

section

variable (place : Place)

/-- On the path of a single place, null is allowed if the place allows it. -/
theorem nullableOn_singleton : NullableOn [place] place.path ↔ place.type.nullable = true := by
  constructor
  · rintro ⟨other, hmem, hnullable, -⟩
    rw [List.mem_singleton.mp hmem] at hnullable
    exact hnullable
  · intro hnullable
    exact ⟨place, List.mem_cons_self, hnullable, List.prefix_refl _⟩

/-- The place itself is then the nearest. -/
theorem nearest_singleton (hnullable : place.type.nullable = true) :
    Nearest [place] place.path place.path where
  nullable := ⟨place, List.mem_cons_self, hnullable, rfl⟩
  on := List.prefix_refl _
  last other hmem _ _ := by
    obtain rfl := List.mem_singleton.mp hmem
    exact List.prefix_refl _

end

section

variable {place : Place} {places : List Place} {path nearest : Path}

/-- A place around others is the nearest to a failure exactly if there is no other that could stop
it. -/
theorem nearest_cons_of_not (hnot : ¬NullableOn places path)
    (hon : place.path <+: path) (hnullable : place.type.nullable = true) :
    Nearest (place :: places) path place.path where
  nullable := ⟨place, List.mem_cons_self, hnullable, rfl⟩
  on := hon
  last other hmem hother hother_on := by
    rcases List.mem_cons.mp hmem with rfl | hmem
    · exact List.prefix_refl _
    · exact absurd ⟨other, hmem, hother, hother_on⟩ hnot

/-- If there is another one, it is not the nearest, because all others are below it. -/
theorem nearest_of_cons
    (hbelow : ∀ other ∈ places, place.path <+: other.path)
    (hstrict : ∀ other ∈ places, other.path ≠ place.path) (hon : NullableOn places path)
    (h : Nearest (place :: places) path nearest) : Nearest places path nearest := by
  refine ⟨?_, h.on, fun other hmem => h.last other (List.mem_cons_of_mem _ hmem)⟩
  obtain ⟨one, hone, hnullable, rfl⟩ := h.nullable
  rcases List.mem_cons.mp hone with rfl | hone
  · -- the place around is not the nearest, since the other one is on the path, too
    obtain ⟨other, hother, hother_null, hother_on⟩ := hon
    have hle := h.last other (List.mem_cons_of_mem _ hother) hother_null hother_on
    have heq := hle.eq_of_length (Nat.le_antisymm hle.length_le (hbelow other hother).length_le)
    exact absurd heq (hstrict other hother)
  · exact ⟨one, hone, hnullable, rfl⟩

/-- The other way around. -/
theorem nearest_cons (hbelow : ∀ other ∈ places, place.path <+: other.path)
    (h : Nearest places path nearest) : Nearest (place :: places) path nearest := by
  obtain ⟨one, hone, hnullable, rfl⟩ := h.nullable
  refine ⟨⟨one, List.mem_cons_of_mem _ hone, hnullable, rfl⟩, h.on, ?_⟩
  intro other hmem hother hother_on
  rcases List.mem_cons.mp hmem with rfl | hmem
  · exact hbelow one hone
  · exact h.last other hmem hother hother_on

end

/-! ## Places of parts -/

section

variable {ι : Type} {base : Path} {items : List ι} {step : ι → PathStep}
  {places : ι → List Place}

/-- A place on a path into one part is a place of that part. Had it been a place of another part,
the path would lead into two parts by different first steps. -/
theorem mem_places_of_prefix (hsteps : (items.map step).Nodup)
    (hbelow : ∀ item ∈ items, ∀ place ∈ places item, base ++ [step item] <+: place.path)
    {item : ι} (hitem : item ∈ items) {path : Path} (hpath : base ++ [step item] <+: path)
    {place : Place} (hplace : place ∈ items.flatMap places) (hon : place.path <+: path) :
    place ∈ places item := by
  obtain ⟨other, hother, hmem⟩ := List.mem_flatMap.mp hplace
  -- had it been a place of another part, the paths would have parted
  by_cases hstep : step other = step item
  · rwa [List.inj_on_of_nodup_map hsteps hother hitem hstep] at hmem
  · exact absurd hon (Path.not_prefix_of_ne hstep (hbelow other hother place hmem) hpath)

/-- Whether null is allowed on a path into one part depends on that part only. -/
theorem nullableOn_flatMap_iff (hsteps : (items.map step).Nodup)
    (hbelow : ∀ item ∈ items, ∀ place ∈ places item, base ++ [step item] <+: place.path)
    {item : ι} (hitem : item ∈ items) {path : Path} (hpath : base ++ [step item] <+: path) :
    NullableOn (items.flatMap places) path ↔ NullableOn (places item) path := by
  constructor
  · rintro ⟨place, hplace, hnullable, hon⟩
    exact ⟨place, mem_places_of_prefix hsteps hbelow hitem hpath hplace hon, hnullable, hon⟩
  · rintro ⟨place, hplace, hnullable, hon⟩
    exact ⟨place, List.mem_flatMap.mpr ⟨item, hitem, hplace⟩, hnullable, hon⟩

/-- And so does where it is allowed last. -/
theorem nearest_flatMap_iff (hsteps : (items.map step).Nodup)
    (hbelow : ∀ item ∈ items, ∀ place ∈ places item, base ++ [step item] <+: place.path)
    {item : ι} (hitem : item ∈ items) {path nearest : Path}
    (hpath : base ++ [step item] <+: path) :
    Nearest (items.flatMap places) path nearest ↔ Nearest (places item) path nearest := by
  constructor
  · intro h
    obtain ⟨place, hplace, hnullable, rfl⟩ := h.nullable
    have hmem := mem_places_of_prefix hsteps hbelow hitem hpath hplace h.on
    refine ⟨⟨place, hmem, hnullable, rfl⟩, h.on, fun other hother => ?_⟩
    exact h.last other (List.mem_flatMap.mpr ⟨item, hitem, hother⟩)
  · intro h
    obtain ⟨place, hplace, hnullable, rfl⟩ := h.nullable
    refine ⟨⟨place, List.mem_flatMap.mpr ⟨item, hitem, hplace⟩, hnullable, rfl⟩, h.on, ?_⟩
    intro other hother hother_null hon
    have hmem := mem_places_of_prefix hsteps hbelow hitem hpath hother hon
    exact h.last other hmem hother_null hon

end

end FeedGraph
