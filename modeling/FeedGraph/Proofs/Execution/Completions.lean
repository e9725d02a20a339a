import FeedGraph.Execution.Executor
import FeedGraph.Proofs.Plan.Results

/-!
# Completions: values and failures put together

An object or a list of completions has a value exactly if all its parts have one, and then its value
consists of theirs (`object_eq_some`, `list_eq_some`). Where null is allowed, there is always a
value (`absorb_eq_some`).

`Json.at?` is what a path leads to in a value. `MadeOf` says how a completion hangs together with
the completions of its parts, for objects and lists alike.
-/

namespace FeedGraph

namespace Completion

/-- If all parts have values, these are what comes of them, in order. -/
theorem forall₂_of_values {completions : List Completion} {values : List Json}
    (h : completions.mapM Completion.value? = some values) :
    List.Forall₂ (fun completion value => completion.value? = some value) completions values := by
  induction completions generalizing values with
  | nil =>
    obtain rfl := Option.some.inj h
    exact .nil
  | cons completion rest ih =>
    rw [List.mapM_cons] at h
    obtain ⟨value, hvalue, h⟩ := Option.bind_eq_some_iff.mp h
    obtain ⟨others, hothers, h⟩ := Option.bind_eq_some_iff.mp h
    obtain rfl := Option.some.inj h
    exact .cons hvalue (ih hothers)

/-- If there is no value, one of the parts has none. -/
theorem values_eq_none_iff {completions : List Completion} :
    completions.mapM Completion.value? = none ↔
      ∃ completion ∈ completions, completion.value? = none := by
  induction completions with
  | nil => simp
  | cons completion rest ih =>
    rw [List.mapM_cons, List.exists_mem_cons_iff, ← ih]
    cases completion.value? with
    | none => simp
    | some value => cases rest.mapM Completion.value? <;> simp

/-- A list has the values of its items, no more and no fewer. -/
theorem list_eq_some {completions : List Completion} {json : Json}
    (h : (list completions).value? = some json) :
    ∃ values, json = .array values ∧
      List.Forall₂ (fun completion value => completion.value? = some value) completions values := by
  obtain ⟨values, hvalues, rfl⟩ := Option.map_eq_some_iff.mp h
  exact ⟨values, rfl, forall₂_of_values hvalues⟩

/-- An object has the values of its members, under their names if these differ. With a name twice,
the second member would replace the first. -/
theorem object_eq_some {names : List String} {completions : List Completion} {json : Json}
    (hlength : completions.length = names.length) (hnames : names.Nodup)
    (h : (object names completions).value? = some json) :
    ∃ values, json = .object (names.zip values) ∧
      List.Forall₂ (fun completion value => completion.value? = some value) completions values := by
  obtain ⟨values, hvalues, rfl⟩ := Option.map_eq_some_iff.mp h
  have hall := forall₂_of_values hvalues
  have hzip : Members.names (names.zip values) = names :=
    List.map_fst_zip (Nat.le_of_eq (hlength.symm.trans hall.length_eq))
  rw [Members.ofPairs_of_nodup (hzip.symm ▸ hnames)]
  exact ⟨values, rfl, hall⟩

/-- A list has no value exactly if one of its items has none. -/
theorem list_eq_none_iff {completions : List Completion} :
    (list completions).value? = none ↔ ∃ completion ∈ completions, completion.value? = none := by
  rw [list, Option.map_eq_none_iff]
  exact values_eq_none_iff

/-- An object has no value exactly if one of its members has none. -/
theorem object_eq_none_iff {names : List String} {completions : List Completion} :
    (object names completions).value? = none ↔
      ∃ completion ∈ completions, completion.value? = none := by
  rw [object, Option.map_eq_none_iff]
  exact values_eq_none_iff

theorem mapM_values {α : Type} (value : α → Json) (items : List α) :
    (items.map fun item => Completion.value (value item)).mapM Completion.value? =
      some (items.map value) := by
  rw [List.mapM_map]
  exact List.mapM_pure

theorem allFailures_values {α : Type} (value : α → Json) (items : List α) :
    allFailures (items.map fun item => Completion.value (value item)) = [] := by
  rw [allFailures, List.flatMap_map]
  exact List.flatMap_eq_nil_iff.mpr fun _ _ => rfl

/-- Values make up a list; there is no failure among them. -/
theorem list_of_values {α : Type} (value : α → Json) (items : List α) :
    list (items.map fun item => .value (value item)) = .value (.array (items.map value)) := by
  rw [list, mapM_values, allFailures_values]
  rfl

/-- Values make up an object, if the names differ. -/
theorem object_of_values {α : Type} {name : α → String} (value : α → Json) {items : List α}
    (hnames : (items.map name).Nodup) :
    object (items.map name) (items.map fun item => .value (value item)) =
      .value (.object (items.map fun item => (name item, value item))) := by
  have hzip : (items.map name).zip (items.map value) = items.map fun item => (name item, value item) :=
    List.zip_map'
  have hnodup : (Members.names (items.map fun item => (name item, value item))).Nodup := by
    rw [Members.names, List.map_map]
    exact hnames
  rw [object, mapM_values, allFailures_values, Option.map_some, hzip,
    Members.ofPairs_of_nodup hnodup]
  rfl

/-- With or without a failure stopped, the value is the same, unless there was none and null is
allowed. So an answer that is not null is never made up by stopping a failure. -/
theorem absorb_eq_some {nullable : Bool} {completion : Completion} {json : Json}
    (h : (completion.absorb nullable).value? = some json) :
    completion.value? = some json ∨
      completion.value? = none ∧ nullable = true ∧ json = .null := by
  cases hvalue : completion.value? with
  | some value =>
    rw [absorb_of_value nullable hvalue, hvalue] at h
    exact .inl h
  | none =>
    rw [absorb, hvalue] at h
    cases nullable with
    | false => exact absurd (hvalue.symm.trans h) (by simp)
    | true => exact .inr ⟨rfl, rfl, (Option.some.inj h).symm⟩

/-- The value of a failure that is stopped is null, and null is allowed. -/
theorem absorb_failed_eq_some {nullable : Bool} {failure : Failure} {json : Json}
    (h : ((failed failure).absorb nullable).value? = some json) :
    nullable = true ∧ json = .null := by
  rcases absorb_eq_some h with h | ⟨-, h⟩
  · cases h
  · exact h

end Completion

/-! ## Steps into the data -/

namespace Json

/-- What one step leads to: the member with a name, or the item at an index. A step of the wrong
kind leads nowhere. -/
def child? : Json → PathStep → Option Json
  | .object members, .field name => Members.get? members name
  | .array items, .index n => items[n]?
  | _, _ => none

/-- What a path leads to, step by step from the outside in. -/
def at? : Json → Path → Option Json
  | json, [] => some json
  | json, step :: rest => (json.child? step).bind (at? · rest)

@[simp] theorem at?_nil (json : Json) : json.at? [] = some json := by
  rw [at?]

theorem at?_cons (json : Json) (step : PathStep) (rest : Path) :
    json.at? (step :: rest) = (json.child? step).bind (at? · rest) := by
  rw [at?]

/-- No path leads into null. -/
theorem at?_null_eq_some {path : Path} {json : Json} (h : Json.null.at? path = some json) :
    path = [] ∧ json = .null := by
  cases path with
  | nil => exact ⟨rfl, (Option.some.inj h).symm⟩
  | cons step rest =>
    rw [at?_cons] at h
    cases h

end Json

/-! ## What a completion is made of -/

/-- A completion is made of parts: it has their failures, it has a value if all of them have one,
and then each step into it leads to the value of a part. Lists and objects both satisfy this, and
all that null propagation needs to know of either is said here. -/
structure MadeOf {ι : Type} (items : List ι) (step : ι → PathStep) (part : ι → Completion)
    (completion : Completion) : Prop where
  /-- the failures are those of the parts -/
  failures_eq : completion.failures = items.flatMap fun item => (part item).failures
  /-- there is no value exactly if a part has none -/
  none_iff : completion.value? = none ↔ ∃ item ∈ items, (part item).value? = none
  /-- steps lead to the values of parts -/
  child_iff : ∀ json, completion.value? = some json → ∀ next value,
    json.child? next = some value ↔
      ∃ item ∈ items, step item = next ∧ (part item).value? = some value
  /-- the value is an object or a list -/
  not_null : completion.value? ≠ some .null

/-- At an index of a list is the value of the item with this index, which `List.zipIdx` has paired
with it. -/
theorem getElem?_eq_some_iff_of_forall₂ {items values : List Json} {part : Json × Nat → Completion}
    (h : List.Forall₂ (fun item value => (part item).value? = some value) items.zipIdx values)
    (n : Nat) (value : Json) :
    values[n]? = some value ↔
      ∃ item ∈ items.zipIdx, item.2 = n ∧ (part item).value? = some value := by
  have hlength : items.length = values.length := by simpa using h.length_eq
  have hget : ∀ (hn : n < items.length) (hn' : n < values.length),
      (part (items[n], n)).value? = some values[n] := by
    intro hn hn'
    have hpair := h.get (by simpa using hn) hn'
    simpa using hpair
  constructor
  · intro hvalue
    obtain ⟨hn, rfl⟩ := List.getElem?_eq_some_iff.mp hvalue
    have hn' : n < items.length := hlength ▸ hn
    exact ⟨(items[n], n), List.mk_mem_zipIdx_iff_getElem?.mpr (List.getElem?_eq_getElem hn'), rfl,
      hget hn' hn⟩
  · rintro ⟨⟨item, index⟩, hmem, rfl, hvalue⟩
    obtain ⟨hn, rfl⟩ := List.getElem?_eq_some_iff.mp (List.mk_mem_zipIdx_iff_getElem?.mp hmem)
    have hn' : index < values.length := hlength ▸ hn
    rw [hget hn hn'] at hvalue
    rw [List.getElem?_eq_getElem hn', hvalue]

/-- Under a name of an object is the value of the field that has this output name; there is only
one. -/
theorem get?_zip_eq_some_iff {selected : List PlannedField} {values : List Json}
    {part : PlannedField → Completion} (hnodup : (selected.map PlannedField.output).Nodup)
    (h : List.Forall₂ (fun field value => (part field).value? = some value) selected values)
    (name : String) (value : Json) :
    Members.get? ((selected.map PlannedField.output).zip values) name = some value ↔
      ∃ field ∈ selected, field.output = name ∧ (part field).value? = some value := by
  induction h with
  | nil => simp
  | @cons field first selected values hfield _ ih =>
    rw [List.map_cons, List.nodup_cons] at hnodup
    rw [List.map_cons, List.zip_cons_cons, Members.get?_cons, List.exists_mem_cons_iff]
    by_cases hname : field.output = name
    · -- the first field has the name, and then no other one has it
      have hother : ¬∃ other ∈ selected,
          other.output = name ∧ (part other).value? = some value := by
        rintro ⟨other, hmem, hother, -⟩
        exact hnodup.1 (List.mem_map.mpr ⟨other, hmem, hother.trans hname.symm⟩)
      rw [if_pos hname, hfield, or_iff_left hother]
      exact ⟨fun heq => ⟨hname, heq⟩, fun heq => heq.2⟩
    · rw [if_neg hname, ih hnodup.2, or_iff_right fun heq => hname heq.1]

/-- A list is made of its items, with their indices as steps. -/
theorem madeOf_list (items : List Json) (part : Json × Nat → Completion) :
    MadeOf items.zipIdx (fun item => .index item.2) part
      (Completion.list (items.zipIdx.map part)) where
  failures_eq := by
    rw [Completion.list, Completion.allFailures, List.flatMap_map]
  none_iff := by
    simp [Completion.list_eq_none_iff]
  child_iff json hjson next value := by
    obtain ⟨values, rfl, hall⟩ := Completion.list_eq_some hjson
    have hall := List.forall₂_map_left_iff.mp hall
    cases next with
    | field name => simp [Json.child?]
    | index n =>
      simp only [Json.child?, PathStep.index.injEq]
      exact getElem?_eq_some_iff_of_forall₂ hall n value
  not_null hnull := by
    obtain ⟨values, hvalues, -⟩ := Completion.list_eq_some hnull
    cases hvalues

/-- An object is made of the fields that are selected, with their output names as steps. -/
theorem madeOf_object {selected : List PlannedField}
    (hnodup : (selected.map PlannedField.output).Nodup) (part : PlannedField → Completion) :
    MadeOf selected (fun field => .field field.output) part
      (Completion.object (selected.map PlannedField.output) (selected.map part)) where
  failures_eq := by
    rw [Completion.object, Completion.allFailures, List.flatMap_map]
  none_iff := by
    simp [Completion.object_eq_none_iff]
  child_iff json hjson next value := by
    obtain ⟨values, rfl, hall⟩ := Completion.object_eq_some (by simp) hnodup hjson
    have hall := List.forall₂_map_left_iff.mp hall
    cases next with
    | field name =>
      simp only [Json.child?, PathStep.field.injEq]
      exact get?_zip_eq_some_iff hnodup hall name value
    | index n => simp [Json.child?]
  not_null hnull := by
    obtain ⟨values, hvalues, -⟩ := Completion.object_eq_some (by simp) hnodup hnull
    cases hvalues

end FeedGraph
