import FeedGraph.Proofs.Execution.Answers
import FeedGraph.Proofs.Execution.Places

/-!
# NullPropagation: failures and the nulls they leave

A failure makes the nearest place around it null that may be null, and if there is none, all data.
`Propagates` says so of a part of the data, from the completion of the part and the places in it:
what failures it has, when it has no value, and which nulls are in its value and why.

The invariant is kept where parts become an object or a list (`Branching.gather`), since they lie on
different branches, and where a failure may be stopped (`PropagatesBelow.close`). From that,
`Executor.execute_nulls` says it of the whole response to an accepted operation.
-/

namespace FeedGraph

/-- A path does not lead into the value of a leaf, which is passed on as it is. Nulls in there are
the resolver's own, and nothing that a failure has to explain. -/
def OutsideLeaves (schema : Schema) (places : List Place) (path : Path) : Prop :=
  ∀ place ∈ places, place.IsLeaf schema → place.path <+: path → place.path = path

/-- How failures and nulls hang together in the part of the data that is at a path. This is the
invariant: `Propagates.value` and `Propagates.failed` say it of a place alone, and
`Branching.gather` and `PropagatesBelow.close` keep it on the way up to the root. -/
structure Propagates (schema : Schema) (base : Path) (places : List Place)
    (completion : Completion) : Prop where
  /-- its places are at the path or below -/
  below : ∀ place ∈ places, base <+: place.path
  /-- failures are those of places that fail -/
  failures : ∀ failure ∈ completion.failures, ∃ place ∈ places, ∃ reason,
    place.Fails schema reason ∧ failure = place.failure reason
  /-- and the failure of each place that fails is there -/
  reported : ∀ place ∈ places, ∀ reason, place.Fails schema reason →
    place.failure reason ∈ completion.failures
  /-- no failure is on the path of another -/
  apart : (completion.failures.map (·.path)).Pairwise Path.Apart
  /-- there is no value exactly if null is nowhere allowed on the path of some failure -/
  none_iff : completion.value? = none ↔
    ∃ failure ∈ completion.failures, ¬NullableOn places failure.path
  /-- otherwise the nearest place where null is allowed is null, or something around it is -/
  stopped : ∀ json, completion.value? = some json → ∀ failure ∈ completion.failures,
    ∀ nearest, Nearest places failure.path nearest →
      ∃ rest, base ++ rest <+: nearest ∧ json.at? rest = some .null
  /-- null was resolved where it is allowed, or is at the nearest such place to a failure -/
  nulls : ∀ json, completion.value? = some json → ∀ rest, json.at? rest = some .null →
    OutsideLeaves schema places (base ++ rest) →
      (∃ place ∈ places, place.path = base ++ rest ∧ place.type.nullable = true ∧
        place.resolved = .ok .null) ∨
      ∃ failure ∈ completion.failures, Nearest places failure.path (base ++ rest)

/-- The same of what is in a value; its places are all below, and the value is not null. The two
differ by the place of the value itself, which `PropagatesBelow.close` adds. -/
structure PropagatesBelow (schema : Schema) (base : Path) (places : List Place)
    (completion : Completion) : Prop extends Propagates schema base places completion where
  /-- no place is at the path itself -/
  strict : ∀ place ∈ places, place.path ≠ base
  /-- the value is an object or a list -/
  not_null : completion.value? ≠ some .null

namespace Propagates

variable {schema : Schema} (place : Place)

/-- A value without failures, with no nulls in it but those that are passed on, at a place that does
not fail. There is nothing to report and nothing to explain, so the other conditions hold of no
failure. -/
theorem value {json : Json} (hfits : ∀ reason, ¬place.Fails schema reason)
    (hnulls : ∀ rest, json.at? rest = some .null →
      (rest ≠ [] ∧ place.IsLeaf schema) ∨
        (rest = [] ∧ place.type.nullable = true ∧ place.resolved = .ok .null)) :
    Propagates schema place.path [place] (.value json) where
  below other hmem := by
    obtain rfl := List.mem_singleton.mp hmem
    exact List.prefix_refl _
  failures _ hmem := absurd hmem List.not_mem_nil
  reported other hmem reason hfails := by
    obtain rfl := List.mem_singleton.mp hmem
    exact absurd hfails (hfits reason)
  apart := .nil
  none_iff := by simp [Completion.value]
  stopped _ _ _ hmem := absurd hmem List.not_mem_nil
  nulls json' hjson rest hrest houtside := by
    obtain rfl := Option.some.inj hjson
    rcases hnulls rest hrest with ⟨hne, hleaf⟩ | ⟨rfl, hnullable, hresolved⟩
    · -- a path that goes on into the leaf is not one of those that are asked about
      have heq := houtside place List.mem_cons_self hleaf (List.prefix_append _ _)
      exact absurd (List.append_right_eq_self.mp heq.symm) hne
    · exact .inl ⟨place, List.mem_cons_self, (List.append_nil _).symm, hnullable, hresolved⟩

/-- A place that fails, with its failure, stopped if null is allowed. The nearest place is then the
failing place itself. -/
theorem failed {reason : FailureReason} (hfails : place.Fails schema reason) :
    Propagates schema place.path [place]
      ((Completion.failed (place.failure reason)).absorb place.type.nullable) where
  below other hmem := by
    obtain rfl := List.mem_singleton.mp hmem
    exact List.prefix_refl _
  failures failure hmem := by
    rw [Completion.failures_absorb] at hmem
    exact ⟨place, List.mem_cons_self, reason, hfails, List.mem_singleton.mp hmem⟩
  reported other hmem reason' hfails' := by
    obtain rfl := List.mem_singleton.mp hmem
    rw [Completion.failures_absorb, hfails.2.unique hfails'.2]
    exact List.mem_cons_self
  apart := by
    rw [Completion.failures_absorb]
    exact List.pairwise_singleton _ _
  none_iff := by
    rw [Completion.failures_absorb]
    simp only [Completion.failed, Place.failure, List.mem_singleton, exists_eq_left,
      nullableOn_singleton]
    cases place.type.nullable <;> simp [Completion.absorb]
  stopped json hjson failure hmem nearest hnearest := by
    rw [Completion.failures_absorb] at hmem
    rw [List.mem_singleton.mp hmem] at hnearest
    obtain ⟨hnullable, rfl⟩ := Completion.absorb_failed_eq_some hjson
    obtain rfl := hnearest.unique (nearest_singleton place hnullable)
    exact ⟨[], by simp, Json.at?_nil _⟩
  nulls json hjson rest hrest _ := by
    obtain ⟨hnullable, rfl⟩ := Completion.absorb_failed_eq_some hjson
    obtain ⟨rfl, -⟩ := Json.at?_null_eq_some hrest
    refine .inr ⟨_, by rw [Completion.failures_absorb]; exact List.mem_cons_self, ?_⟩
    rw [List.append_nil]
    exact nearest_singleton place hnullable

end Propagates

/-! ## Stopping failures -/

namespace PropagatesBelow

variable {schema : Schema} {place : Place} {places : List Place} {completion : Completion}

/-- Failures are below the place around them. -/
theorem prefix_of_failure (h : PropagatesBelow schema place.path places completion)
    {failure : Failure} (hmem : failure ∈ completion.failures) : place.path <+: failure.path := by
  obtain ⟨other, hother, reason, -, rfl⟩ := h.failures failure hmem
  exact h.below other hother

/-- Places stay below if the place around them is one of them. -/
theorem below_cons (h : PropagatesBelow schema place.path places completion) :
    ∀ other ∈ place :: places, place.path <+: other.path := by
  intro other hmem
  rcases List.mem_cons.mp hmem with rfl | hmem
  · exact List.prefix_refl _
  · exact h.below other hmem

/-- Failures stay those of places. -/
theorem failures_cons (h : PropagatesBelow schema place.path places completion) :
    ∀ failure ∈ completion.failures, ∃ other ∈ place :: places, ∃ reason,
      other.Fails schema reason ∧ failure = other.failure reason := by
  intro failure hmem
  obtain ⟨other, hother, hfailure⟩ := h.failures failure hmem
  exact ⟨other, List.mem_cons_of_mem _ hother, hfailure⟩

/-- And a place around that does not fail adds none that should be there: it is the only new place,
and it has no reason to fail. -/
theorem reported_cons (h : PropagatesBelow schema place.path places completion)
    (hfits : ∀ reason, ¬place.Fails schema reason) :
    ∀ other ∈ place :: places, ∀ reason, other.Fails schema reason →
      other.failure reason ∈ completion.failures := by
  intro other hmem reason hfails
  rcases List.mem_cons.mp hmem with rfl | hmem
  · exact absurd hfails (hfits reason)
  · exact h.reported other hmem reason hfails

/-- With a value, null is allowed somewhere on the path of each failure; otherwise the failure would
have gone on to here, and there would be no value (`Propagates.none_iff`). -/
theorem nullableOn_of_value (h : PropagatesBelow schema place.path places completion) {json : Json}
    (hvalue : completion.value? = some json) {failure : Failure}
    (hmem : failure ∈ completion.failures) : NullableOn places failure.path := by
  refine Classical.not_not.mp fun hnot => ?_
  rw [h.none_iff.mpr ⟨failure, hmem, hnot⟩] at hvalue
  cases hvalue

/-- Where no failure goes on, the place around is as it was. Its type plays no part: for each
failure there is a nearer place that allows null. -/
theorem close_of_value (h : PropagatesBelow schema place.path places completion)
    (hfits : ∀ reason, ¬place.Fails schema reason) {json : Json}
    (hvalue : completion.value? = some json) :
    Propagates schema place.path (place :: places) completion where
  below := h.below_cons
  failures := h.failures_cons
  reported := h.reported_cons hfits
  apart := h.apart
  none_iff := by
    refine iff_of_false (by rw [hvalue]; exact Option.some_ne_none json) ?_
    rintro ⟨failure, hmem, hnot⟩
    obtain ⟨other, hother, hnullable⟩ := h.nullableOn_of_value hvalue hmem
    exact hnot ⟨other, List.mem_cons_of_mem _ hother, hnullable⟩
  stopped json' hjson failure hmem nearest hnearest :=
    h.stopped json' hjson failure hmem nearest
      (nearest_of_cons h.below h.strict (h.nullableOn_of_value hvalue hmem) hnearest)
  nulls json' hjson rest hrest houtside := by
    have houtside' : OutsideLeaves schema places (place.path ++ rest) :=
      fun other hother => houtside other (List.mem_cons_of_mem _ hother)
    rcases h.nulls json' hjson rest hrest houtside' with ⟨other, hother, hnull⟩ |
      ⟨failure, hmem, hnearest⟩
    · exact .inl ⟨other, List.mem_cons_of_mem _ hother, hnull⟩
    · exact .inr ⟨failure, hmem, nearest_cons h.below hnearest⟩

/-- A failure that goes on is stopped at a place where null is allowed. The value is null then, and
the place is the nearest one for all failures that came as far as this. -/
theorem close_of_nullable (h : PropagatesBelow schema place.path places completion)
    (hfits : ∀ reason, ¬place.Fails schema reason)
    (hvalue : completion.value? = none) (hnullable : place.type.nullable = true) :
    Propagates schema place.path (place :: places) ⟨some .null, completion.failures⟩ where
  below := h.below_cons
  failures := h.failures_cons
  reported := h.reported_cons hfits
  apart := h.apart
  none_iff := by
    refine iff_of_false (Option.some_ne_none _) ?_
    rintro ⟨failure, hmem, hnot⟩
    exact hnot ⟨place, List.mem_cons_self, hnullable, h.prefix_of_failure hmem⟩
  stopped json hjson failure hmem nearest hnearest := by
    obtain rfl := Option.some.inj hjson
    refine ⟨[], ?_, Json.at?_nil _⟩
    rw [List.append_nil]
    exact hnearest.last place List.mem_cons_self hnullable (h.prefix_of_failure hmem)
  nulls json hjson rest hrest _ := by
    obtain rfl := Option.some.inj hjson
    obtain ⟨rfl, -⟩ := Json.at?_null_eq_some hrest
    obtain ⟨failure, hmem, hnot⟩ := h.none_iff.mp hvalue
    rw [List.append_nil]
    exact .inr ⟨failure, hmem,
      nearest_cons_of_not hnot (h.prefix_of_failure hmem) hnullable⟩

/-- A failure that goes on goes on past a place where null is not allowed; the place is on the path
of the failure and still does not count as one that could have stopped it. -/
theorem close_of_required (h : PropagatesBelow schema place.path places completion)
    (hfits : ∀ reason, ¬place.Fails schema reason)
    (hvalue : completion.value? = none) (hnullable : place.type.nullable = false) :
    Propagates schema place.path (place :: places) completion where
  below := h.below_cons
  failures := h.failures_cons
  reported := h.reported_cons hfits
  apart := h.apart
  none_iff := by
    refine iff_of_true hvalue ?_
    obtain ⟨failure, hmem, hnot⟩ := h.none_iff.mp hvalue
    refine ⟨failure, hmem, ?_⟩
    rintro ⟨other, hother, hother_null, hon⟩
    rcases List.mem_cons.mp hother with rfl | hother
    · rw [hnullable] at hother_null
      cases hother_null
    · exact hnot ⟨other, hother, hother_null, hon⟩
  stopped json hjson := by
    rw [hvalue] at hjson
    cases hjson
  nulls json hjson := by
    rw [hvalue] at hjson
    cases hjson

/-- The place around is as it should be, whatever becomes of what is in it, if it does not fail
itself. The cases are those of `Completion.absorb`: a value, or none and null allowed, or none and
null not allowed. -/
theorem close (h : PropagatesBelow schema place.path places completion)
    (hfits : ∀ reason, ¬place.Fails schema reason) :
    Propagates schema place.path (place :: places) (completion.absorb place.type.nullable) := by
  cases hvalue : completion.value? with
  | some json =>
    rw [Completion.absorb_of_value _ hvalue]
    exact h.close_of_value hfits hvalue
  | none =>
    rw [Completion.absorb, hvalue]
    cases hnullable : place.type.nullable with
    | true => exact h.close_of_nullable hfits hvalue hnullable
    | false => exact h.close_of_required hfits hvalue hnullable

end PropagatesBelow

/-! ## Putting parts together -/

/-- Parts on different branches, each as it should be. An object has its fields as parts and a list
its items; both are covered by one statement, with the step to a part as a parameter. -/
structure Branching (schema : Schema) (base : Path) {ι : Type} (items : List ι)
    (step : ι → PathStep) (places : ι → List Place) (part : ι → Completion) : Prop where
  /-- the steps to the parts differ -/
  steps : (items.map step).Nodup
  /-- the parts are as they should be -/
  parts : ∀ item ∈ items, Propagates schema (base ++ [step item]) (places item) (part item)

namespace Branching

variable {schema : Schema} {base : Path} {ι : Type} {items : List ι} {step : ι → PathStep}
  {places : ι → List Place} {part : ι → Completion} {completion : Completion}

theorem below (h : Branching schema base items step places part) :
    ∀ item ∈ items, ∀ place ∈ places item, base ++ [step item] <+: place.path :=
  fun item hitem => (h.parts item hitem).below

theorem failure_below (h : Branching schema base items step places part) :
    ∀ item ∈ items, ∀ failure ∈ (part item).failures, base ++ [step item] <+: failure.path := by
  intro item hitem failure hmem
  obtain ⟨place, hplace, reason, -, rfl⟩ := (h.parts item hitem).failures failure hmem
  exact h.below item hitem place hplace

/-- Failures of different parts are apart, since their paths part at the first step behind the
base. -/
theorem apart (h : Branching schema base items step places part)
    (hmade : MadeOf items step part completion) :
    (completion.failures.map (·.path)).Pairwise Path.Apart := by
  have hparts : List.Forall₂ (fun item other =>
      ((part other).failures.map (·.path)).Pairwise Path.Apart ∧
        ∀ path ∈ (part other).failures.map (·.path), base ++ [step item] <+: path) items items := by
    refine List.forall₂_same.mpr fun item hitem => ⟨(h.parts item hitem).apart, ?_⟩
    intro path hpath
    obtain ⟨failure, hmem, rfl⟩ := List.mem_map.mp hpath
    exact h.failure_below item hitem failure hmem
  rw [hmade.failures_eq, List.map_flatMap]
  exact Path.pairwise_flatMap (fun _ _ hapart => hapart) h.steps hparts

/-- The whole has no value exactly if a failure is not stopped in its part. Whether a failure is
stopped depends on the places of its own part only (`nullableOn_flatMap_iff`), so it may be asked of
all places together. -/
theorem none_iff (h : Branching schema base items step places part)
    (hmade : MadeOf items step part completion) :
    completion.value? = none ↔
      ∃ failure ∈ completion.failures, ¬NullableOn (items.flatMap places) failure.path := by
  rw [hmade.none_iff, hmade.failures_eq]
  constructor
  · rintro ⟨item, hitem, hnone⟩
    obtain ⟨failure, hmem, hnot⟩ := (h.parts item hitem).none_iff.mp hnone
    refine ⟨failure, List.mem_flatMap.mpr ⟨item, hitem, hmem⟩, ?_⟩
    rwa [nullableOn_flatMap_iff h.steps h.below hitem (h.failure_below item hitem failure hmem)]
  · rintro ⟨failure, hmem, hnot⟩
    obtain ⟨item, hitem, hmem⟩ := List.mem_flatMap.mp hmem
    rw [nullableOn_flatMap_iff h.steps h.below hitem (h.failure_below item hitem failure hmem)]
      at hnot
    exact ⟨item, hitem, (h.parts item hitem).none_iff.mpr ⟨failure, hmem, hnot⟩⟩

/-- If the whole has a value, so do its parts. -/
theorem exists_value (hmade : MadeOf items step part completion) {json : Json}
    (hjson : completion.value? = some json) {item : ι} (hitem : item ∈ items) :
    ∃ value, (part item).value? = some value := by
  refine Option.ne_none_iff_exists'.mp fun hnone => ?_
  rw [hmade.none_iff.mpr ⟨item, hitem, hnone⟩] at hjson
  cases hjson

/-- What is null in a part is null in the whole: the nearest place of a failure is one of its own
part (`nearest_flatMap_iff`), and looking up a path in the whole goes on in the part. -/
theorem stopped (h : Branching schema base items step places part)
    (hmade : MadeOf items step part completion) {json : Json}
    (hjson : completion.value? = some json) {failure : Failure}
    (hmem : failure ∈ completion.failures) {nearest : Path}
    (hnearest : Nearest (items.flatMap places) failure.path nearest) :
    ∃ rest, base ++ rest <+: nearest ∧ json.at? rest = some .null := by
  rw [hmade.failures_eq] at hmem
  obtain ⟨item, hitem, hmem⟩ := List.mem_flatMap.mp hmem
  rw [nearest_flatMap_iff h.steps h.below hitem (h.failure_below item hitem failure hmem)]
    at hnearest
  obtain ⟨value, hvalue⟩ := exists_value hmade hjson hitem
  obtain ⟨rest, hon, hnull⟩ :=
    (h.parts item hitem).stopped value hvalue failure hmem nearest hnearest
  have hchild := (hmade.child_iff json hjson (step item) value).mpr ⟨item, hitem, rfl, hvalue⟩
  refine ⟨step item :: rest, ?_, ?_⟩
  · rwa [List.append_cons]
  · rw [Json.at?_cons, hchild]
    exact hnull

/-- What is null in the whole is null in a part. The whole is an object or a list, so that a path to
a null in it has a first step, and that leads to a part. -/
theorem nulls (h : Branching schema base items step places part)
    (hmade : MadeOf items step part completion) {json : Json}
    (hjson : completion.value? = some json) {path : Path} (hnull : json.at? path = some .null)
    (houtside : OutsideLeaves schema (items.flatMap places) (base ++ path)) :
    (∃ place ∈ items.flatMap places, place.path = base ++ path ∧ place.type.nullable = true ∧
      place.resolved = .ok .null) ∨
      ∃ failure ∈ completion.failures,
        Nearest (items.flatMap places) failure.path (base ++ path) := by
  cases path with
  -- an object or a list is not null itself, so that the null is in a part
  | nil =>
    rw [Json.at?_nil] at hnull
    obtain rfl := Option.some.inj hnull
    exact absurd hjson hmade.not_null
  | cons next rest =>
    rw [Json.at?_cons] at hnull
    obtain ⟨value, hchild, hvalue_null⟩ := Option.bind_eq_some_iff.mp hnull
    obtain ⟨item, hitem, rfl, hvalue⟩ := (hmade.child_iff json hjson next value).mp hchild
    rw [List.append_cons] at houtside ⊢
    have houtside' : OutsideLeaves schema (places item) (base ++ [step item] ++ rest) :=
      fun place hplace => houtside place (List.mem_flatMap.mpr ⟨item, hitem, hplace⟩)
    rcases (h.parts item hitem).nulls value hvalue rest hvalue_null houtside' with
      ⟨place, hplace, hresolved⟩ | ⟨failure, hmem, hnearest⟩
    · exact .inl ⟨place, List.mem_flatMap.mpr ⟨item, hitem, hplace⟩, hresolved⟩
    · refine .inr ⟨failure, ?_, ?_⟩
      · rw [hmade.failures_eq]
        exact List.mem_flatMap.mpr ⟨item, hitem, hmem⟩
      · rwa [nearest_flatMap_iff h.steps h.below hitem
          (h.failure_below item hitem failure hmem)]

/-- What is made of such parts is as it should be. Every condition of the invariant is a statement
about places and failures that lie in one part, except for `apart`, which is about two of them. -/
theorem gather (h : Branching schema base items step places part)
    (hmade : MadeOf items step part completion) :
    PropagatesBelow schema base (items.flatMap places) completion where
  below place hplace := by
    obtain ⟨item, hitem, hmem⟩ := List.mem_flatMap.mp hplace
    exact (List.prefix_append _ _).trans (h.below item hitem place hmem)
  failures failure hmem := by
    rw [hmade.failures_eq] at hmem
    obtain ⟨item, hitem, hmem⟩ := List.mem_flatMap.mp hmem
    obtain ⟨place, hplace, hfails⟩ := (h.parts item hitem).failures failure hmem
    exact ⟨place, List.mem_flatMap.mpr ⟨item, hitem, hplace⟩, hfails⟩
  reported place hplace reason hfails := by
    obtain ⟨item, hitem, hmem⟩ := List.mem_flatMap.mp hplace
    rw [hmade.failures_eq]
    exact List.mem_flatMap.mpr ⟨item, hitem, (h.parts item hitem).reported place hmem reason hfails⟩
  apart := h.apart hmade
  none_iff := h.none_iff hmade
  stopped _ hjson _ hmem _ hnearest := h.stopped hmade hjson hmem hnearest
  nulls _ hjson _ hnull houtside := h.nulls hmade hjson hnull houtside
  strict place hplace heq := by
    obtain ⟨item, hitem, hmem⟩ := List.mem_flatMap.mp hplace
    exact Path.not_prefix_of_step (heq ▸ h.below item hitem place hmem)
  not_null := hmade.not_null

end Branching

/-! ## Every evaluation -/

namespace Evaluation

variable {schema : Schema} {outcome : Inquiry → Outcome}

/-- What becomes of a value is as it should be, if that is so of objects. The site is that of a
field for which a resolver was asked. The cases of the induction are those of
`Evaluation.value_induction`, and in each the place of the value either fails by itself or is closed
over what is in it. -/
theorem propagates_complete {site : Executor.Site} (hsite : site.field ≠ PlannedField.typename)
    {selected : List PlannedField}
    (hselect : ∀ name members path, PropagatesBelow schema path
      (objectPlaces schema outcome selected name (.object members) path)
      (object schema outcome selected name (.object members) path))
    (type : TypeRef) (value : Json) (path : Path) :
    Propagates schema path
      (⟨path, type, site, .ok value⟩ ::
        placesBelow schema site (objectPlaces schema outcome selected) type value path)
      (complete schema site (object schema outcome selected) type value path) := by
  induction type, value, path using value_induction schema with
  | null type path =>
    rw [complete_null, placesBelow_null]
    let place : Place := ⟨path, type, site, .ok .null⟩
    cases hnull : type.nullable with
    | true =>
      refine Propagates.value place (fun _ hfails => not_misfit_null hnull hfails.2)
        fun rest hrest => ?_
      obtain ⟨rfl, -⟩ := Json.at?_null_eq_some hrest
      exact .inr ⟨rfl, hnull, rfl⟩
    | false =>
      have hfailed : Propagates schema path [place] (Completion.absorb type.nullable _) :=
        Propagates.failed place ⟨hsite, .null hnull⟩
      rw [hnull] at hfailed
      exact hfailed
  | array item nullable items path ih =>
    rw [complete_array, placesBelow_array]
    let place : Place := ⟨path, .list item nullable, site, .ok (.array items)⟩
    have hbelow : PropagatesBelow schema place.path _ _ :=
      Branching.gather ⟨nodup_indexSteps items, ih⟩ (madeOf_list items _)
    exact hbelow.close fun _ hfails => not_misfit_array hfails.2
  | notList item nullable value path hnull hlist =>
    rw [complete_notList hnull hlist, placesBelow_notList hlist]
    exact Propagates.failed ⟨path, .list item nullable, site, .ok value⟩
      ⟨hsite, .notList hnull hlist⟩
  | leaf name nullable value path hnull hleaf =>
    rw [complete_leaf hnull hleaf, placesBelow_leaf hleaf]
    refine Propagates.value ⟨path, .named name nullable, site, .ok value⟩
      (fun _ hfails => not_misfit_leaf hnull hleaf hfails.2)
      fun rest hrest => .inl ⟨?_, name, nullable, rfl, hleaf⟩
    rintro rfl
    exact hnull (Option.some.inj hrest)
  | object name nullable members path hleaf =>
    rw [complete_object hleaf, placesBelow_object hleaf]
    let place : Place := ⟨path, .named name nullable, site, .ok (.object members)⟩
    have hbelow : PropagatesBelow schema place.path _ _ := hselect name members path
    exact hbelow.close fun _ hfails => not_misfit_object hfails.2
  | notObject name nullable value path hnull hleaf hobject =>
    rw [complete_notObject hnull hleaf hobject, placesBelow_notObject hobject]
    exact Propagates.failed ⟨path, .named name nullable, site, .ok value⟩
      ⟨hsite, .notObject hleaf hnull hobject⟩

/-- So is what becomes of an object, if its fields are: fields with different output names are
different branches. -/
theorem propagatesBelow_object {selected : List PlannedField}
    (hnodup : (selected.map PlannedField.output).Nodup) {type : String} {parent : Json}
    {path : Path}
    (h : ∀ asked ∈ selected, Propagates schema (path ++ [.field asked.output])
      (fieldPlaces schema outcome type parent path asked)
      (field schema outcome type parent path asked)) :
    PropagatesBelow schema path (objectPlaces schema outcome selected type parent path)
      (object schema outcome selected type parent path) :=
  Branching.gather ⟨nodup_fieldSteps hnodup, h⟩ (madeOf_object hnodup _)

/-- And so is what becomes of a field, by induction on what is selected below it. A fault of the
resolver is a failure of the place, and a value is completed. -/
theorem propagates_field (asked : PlannedField)
    (hdistinct : PlannedField.DistinctOutputs asked.fields) (type : String) (parent : Json)
    (path : Path) :
    Propagates schema (path ++ [.field asked.output])
      (fieldPlaces schema outcome type parent path asked)
      (field schema outcome type parent path asked) := by
  induction asked using PlannedField.induction generalizing type parent path with
  | step asked ih =>
    -- the types of objects that are found in the value are not known yet, nor is where they are
    have hselect : ∀ name members path, PropagatesBelow schema path
        (objectPlaces schema outcome asked.fields name (.object members) path)
        (object schema outcome asked.fields name (.object members) path) := by
      intro name members path
      refine propagatesBelow_object hdistinct.nodup fun below hbelow => ?_
      exact ih below hbelow (hdistinct.inner below hbelow) name (.object members) path
    let here := path ++ [PathStep.field asked.output]
    let site : Executor.Site := ⟨type, asked.name, asked.position⟩
    rw [field_eq, fieldPlaces_eq]
    by_cases hname : asked.name = PlannedField.typename
    · simp only [if_pos hname]
      refine Propagates.value ⟨here, asked.type, site, .ok (.string type)⟩
        (fun _ hfails => hfails.1 hname) fun rest hrest => ?_
      cases rest with
      | nil => cases Option.some.inj hrest
      | cons next rest => cases hrest
    · simp only [if_neg hname]
      cases outcome ⟨type, parent, here, asked⟩ with
      | error fault =>
        exact Propagates.failed ⟨here, asked.type, site, .error fault⟩ ⟨hname, .fault _ fault⟩
      | ok value =>
        have hcomplete : Propagates schema here
            (⟨here, asked.type, site, .ok value⟩ :: placesBelow schema site
              (objectPlaces schema outcome asked.fields) asked.type value here)
            (complete schema site (object schema outcome asked.fields) asked.type value here) :=
          propagates_complete hname hselect asked.type value here
        exact hcomplete

end Evaluation

/-! ## Responses -/

/-- The errors are those of the places that fail, and the nulls in the data are explained by them.
What `Place.Fails` says of a place does not depend on completions, and so neither an error that is
left out nor one that is made up goes unnoticed. -/
structure Explained (schema : Schema) (places : List Place) (data : Json)
    (errors : List ResponseError) : Prop where
  /-- an error is at a place that fails; it points at the field, and its message is the reason -/
  located : ∀ error ∈ errors, ∃ place ∈ places, ∃ reason, place.Fails schema reason ∧
    error = ⟨reason.message, [place.site.position], place.path⟩
  /-- a place that fails has its error, which is the only one there -/
  reported : ∀ place ∈ places, ∀ reason, place.Fails schema reason →
    errors.filter (·.path = place.path) = [⟨reason.message, [place.site.position], place.path⟩]
  /-- no two errors are at one place, or one on the path of the other -/
  apart : (errors.map (·.path)).Pairwise Path.Apart
  /-- if null is allowed on the path of an error, the nearest such place is null or something around
  it is -/
  stopped : ∀ error ∈ errors, NullableOn places error.path →
    ∃ nearest around, Nearest places error.path nearest ∧ around <+: nearest ∧
      data.at? around = some .null
  /-- if null is nowhere allowed on the path of an error, there is no data -/
  unstopped : ∀ error ∈ errors, ¬NullableOn places error.path → data = .null
  /-- null in the data was resolved where it is allowed, or is the nearest such place to an error -/
  nulls : ∀ path, path ≠ [] → data.at? path = some .null → OutsideLeaves schema places path →
    (∃ place ∈ places, place.path = path ∧ place.type.nullable = true ∧
      place.resolved = .ok .null) ∨
      ∃ error ∈ errors, Nearest places error.path path
  /-- there is no data exactly if null is nowhere allowed on the path of some error -/
  null_iff : data = .null ↔ ∃ error ∈ errors, ¬NullableOn places error.path

/-- Of errors whose paths are apart, an error is the only one at its path, because a path is not
apart from itself. -/
theorem filter_path_eq_singleton {errors : List ResponseError} {error : ResponseError}
    (hapart : (errors.map (·.path)).Pairwise Path.Apart) (hmem : error ∈ errors) :
    errors.filter (·.path = error.path) = [error] := by
  induction errors with
  | nil => cases hmem
  | cons first rest ih =>
    rw [List.map_cons, List.pairwise_cons] at hapart
    obtain ⟨hfirst, hrest⟩ := hapart
    rcases List.mem_cons.mp hmem with rfl | hmem
    · have hnone : rest.filter (·.path = error.path) = [] := by
        refine List.filter_eq_nil_iff.mpr fun other hother => ?_
        rw [decide_eq_true_iff]
        intro heq
        exact (hfirst _ (List.mem_map_of_mem hother)).1 (heq ▸ List.prefix_refl _)
      rw [List.filter_cons_of_pos (by simp), hnone]
    · have hne : first.path ≠ error.path := by
        intro heq
        exact (hfirst _ (List.mem_map_of_mem hmem)).1 (heq ▸ List.prefix_refl _)
      rw [List.filter_cons_of_neg (by simpa using hne), ih hrest hmem]

namespace PropagatesBelow

variable {schema : Schema} {places : List Place} {completion : Completion}

/-- Null for all data means that there is no value, since a completed object is not null. -/
theorem getD_value_eq_null_iff (h : PropagatesBelow schema [] places completion) :
    completion.value?.getD .null = .null ↔ completion.value? = none := by
  cases hvalue : completion.value? with
  | none => simp
  | some json =>
    have hne := h.not_null
    rw [hvalue] at hne
    simpa using hne

/-- The paths of the errors are those of the failures, and so they are apart. -/
theorem apart_errors (h : PropagatesBelow schema [] places completion) :
    ((completion.failures.map .ofFailure).map ResponseError.path).Pairwise Path.Apart := by
  rw [List.map_map]
  exact h.apart

/-- The response that a completed root makes is explained. There is no place around the root, so
that null for all data stands for a failure that nothing has stopped. -/
theorem explained (h : PropagatesBelow schema [] places completion) :
    Explained schema places (completion.value?.getD .null)
      (completion.failures.map .ofFailure) where
  located error hmem := by
    obtain ⟨failure, hfailure, rfl⟩ := List.mem_map.mp hmem
    obtain ⟨place, hplace, reason, hfails, rfl⟩ := h.failures failure hfailure
    exact ⟨place, hplace, reason, hfails, rfl⟩
  reported place hplace reason hfails := by
    have hmem : ResponseError.ofFailure (place.failure reason) ∈
        completion.failures.map .ofFailure :=
      List.mem_map_of_mem (h.reported place hplace reason hfails)
    exact filter_path_eq_singleton h.apart_errors hmem
  apart := h.apart_errors
  stopped error hmem hon := by
    obtain ⟨failure, hfailure, rfl⟩ := List.mem_map.mp hmem
    obtain ⟨nearest, hnearest⟩ := hon.exists_nearest
    cases hvalue : completion.value? with
    -- another failure has gone all the way up
    | none => exact ⟨nearest, [], hnearest, List.nil_prefix, by simp⟩
    | some json =>
      obtain ⟨around, hon, hat⟩ := h.stopped json hvalue failure hfailure nearest hnearest
      exact ⟨nearest, around, hnearest, hon, hat⟩
  unstopped error hmem hnot := by
    obtain ⟨failure, hfailure, rfl⟩ := List.mem_map.mp hmem
    exact h.getD_value_eq_null_iff.mpr (h.none_iff.mpr ⟨failure, hfailure, hnot⟩)
  nulls path hne hat houtside := by
    cases hvalue : completion.value? with
    | none =>
      rw [hvalue] at hat
      exact absurd (Json.at?_null_eq_some hat).1 hne
    | some json =>
      rw [hvalue] at hat
      rcases h.nulls json hvalue path hat houtside with hplace | ⟨failure, hmem, hnearest⟩
      · exact .inl hplace
      · exact .inr ⟨_, List.mem_map_of_mem hmem, hnearest⟩
  null_iff := by
    rw [h.getD_value_eq_null_iff, h.none_iff]
    constructor
    · rintro ⟨failure, hfailure, hnot⟩
      exact ⟨_, List.mem_map_of_mem hfailure, hnot⟩
    · rintro ⟨error, hmem, hnot⟩
      obtain ⟨failure, hfailure, rfl⟩ := List.mem_map.mp hmem
      exact ⟨failure, hfailure, hnot⟩

end PropagatesBelow

namespace Executor

variable {σ : Type}

/-- In the response to an accepted operation, each failure is reported once and makes the nearest
place null where that is allowed, or something around it, and there are no other nulls but those
that were resolved (`Explained`). The places are those that are reached with the outcomes that were
recorded in the execution itself, and it does not matter what the outcomes of other inquiries would
have been: a place that was not asked for would have to be explained for each of them. -/
theorem execute_nulls (executor : Executor σ) {document : Document}
    {operationName? : Option String} {supplied : Members Json} {depthLimit : Nat} {plan : Plan}
    (h : Plan.ofDocument executor.schema document operationName? supplied depthLimit = .ok plan)
    (state : σ) :
    let recorded := ((executor.executeRecorded plan).run state).1
    ((executor.execute plan).run state).1 = recorded.result ∧
      recorded.log.Agrees recorded.log.outcome ∧
      ∃ root data, executor.schema.root? plan.kind = some root ∧
        recorded.result.data? = some data ∧
        ∀ outcome, recorded.log.Agrees outcome →
          Explained executor.schema
            (Evaluation.objectPlaces executor.schema outcome plan.fields root (.object []) [])
            data recorded.result.errors := by
  intro recorded
  obtain ⟨root, hroot, hdistinct, -⟩ := Plan.declared_ofDocument h
  obtain ⟨hnodup, hresponse⟩ := (ends_executeRecorded executor hdistinct).run state
  have hlog := Log.agrees_outcome hnodup
  obtain ⟨data, hdata⟩ : ∃ data, recorded.result.data? = some data :=
    ⟨_, congrArg Response.data? (hresponse recorded.log.outcome hlog).symm⟩
  refine ⟨by rw [run_executeRecorded], hlog, root, data, hroot, hdata, fun outcome houtcome => ?_⟩
  have hbelow : PropagatesBelow executor.schema []
      (Evaluation.objectPlaces executor.schema outcome plan.fields root (.object []) [])
      (Evaluation.object executor.schema outcome plan.fields root (.object []) []) := by
    refine Evaluation.propagatesBelow_object hdistinct.nodup fun field hfield => ?_
    exact Evaluation.propagates_field field (hdistinct.inner field hfield) root (.object []) []
  have heq : Evaluation.response executor.schema outcome plan = recorded.result :=
    hresponse outcome houtcome
  rw [Evaluation.response, hroot, Option.getD_some] at heq
  rw [← heq] at hdata ⊢
  obtain rfl := Option.some.inj hdata
  exact hbelow.explained

end Executor

namespace Concerts

/-- The venue and the acts of the gala are null because of what is missing in them: an instance of
the general theorem, for a request whose data are null at two places. -/
theorem gala_nulls :
    Plan.ofDocument executor.schema document none [] 16 = .ok plan ∧
    let recorded := ((executor.executeRecorded plan).run 0).1
    ((executor.execute plan).run 0).1 = recorded.result ∧
      recorded.log.Agrees recorded.log.outcome ∧
      ∃ root data, executor.schema.root? plan.kind = some root ∧
        recorded.result.data? = some data ∧
        ∀ outcome, recorded.log.Agrees outcome →
          Explained executor.schema
            (Evaluation.objectPlaces executor.schema outcome plan.fields root (.object []) [])
            data recorded.result.errors :=
  ⟨ofDocument_eq, Executor.execute_nulls executor ofDocument_eq 0⟩

/-- There are two errors below the venue, and one in the list of acts. -/
example : ((executor.execute plan).run 0).1.errors.map (·.path) =
    [[.field "c", .field "venue", .field "hall"], [.field "c", .field "venue", .field "name"],
      [.field "c", .field "acts", .index 1]] := by
  rfl

end Concerts

end FeedGraph
