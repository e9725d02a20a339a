import FeedGraph.Plan.Field
import FeedGraph.Plan.Rejection

/-!
# Merge: fields with one output name

Fields of one selection may share an output name if they are the same field with equal arguments.
They become one, in the place of the first, and what is selected of their values is put together and
merged in turn. All of one level is put together before any of the levels below it.

`PlannedField.sizes_mergeLevel` says that putting a level together loses no field; that is why
merging ends.
-/

namespace FeedGraph

namespace PlannedField

/-! ## One level -/

/-- Why two fields with one output name cannot be one. Another name is told before other arguments;
what is selected of the fields is not compared. -/
def conflict? (first second : PlannedField) : Option Conflict :=
  if first.name ≠ second.name then some (.differentFields first.name second.name)
  else if !Value.sameObject first.arguments second.arguments then some .differentArguments
  else none

/-- Adds a field to others with different output names: behind them, or to the one that has its
output name already, which keeps its place and its own arguments. -/
def insertField (field : PlannedField) : List PlannedField → Except Rejection (List PlannedField)
  | [] => .ok [field]
  | first :: rest =>
    if first.output = field.output then
      match conflict? first field with
      | some reason => .error (.conflict first.output reason field.position)
      | none => .ok ({ first with fields := first.fields ++ field.fields } :: rest)
    else (insertField field rest).map (first :: ·)

def mergeLevelInto : List PlannedField → List PlannedField → Except Rejection (List PlannedField)
  | merged, [] => .ok merged
  | merged, field :: rest => do mergeLevelInto (← insertField field merged) rest

/-- Puts fields with one output name together, from the first to the last. -/
def mergeLevel (fields : List PlannedField) : Except Rejection (List PlannedField) :=
  mergeLevelInto [] fields

/-! ## Sizes -/

theorem size_eq (field : PlannedField) : field.size = sizes field.fields + 1 := by
  cases field
  rfl

@[simp] theorem sizes_nil : sizes [] = 0 := rfl

@[simp] theorem sizes_cons (field : PlannedField) (rest : List PlannedField) :
    sizes (field :: rest) = field.size + sizes rest := rfl

theorem sizes_append (fields others : List PlannedField) :
    sizes (fields ++ others) = sizes fields + sizes others := by
  induction fields with
  | nil => simp
  | cons field rest ih => simp [ih, Nat.add_assoc]

theorem size_le_sizes {field : PlannedField} {fields : List PlannedField} (h : field ∈ fields) :
    field.size ≤ sizes fields := by
  induction fields with
  | nil => simp at h
  | cons first rest ih =>
    rcases List.mem_cons.mp h with rfl | h
    · simp
    · have := ih h
      rw [sizes_cons]
      omega

theorem sizes_insertField {field : PlannedField} {fields merged : List PlannedField}
    (h : insertField field fields = .ok merged) : sizes merged + 1 ≥ sizes fields + field.size ∧
      sizes merged ≤ sizes fields + field.size := by
  induction fields generalizing merged with
  | nil =>
    simp only [insertField, Except.ok.injEq] at h
    subst h
    simp
  | cons first rest ih =>
    rw [insertField] at h
    split at h
    · split at h
      · simp at h
      · simp only [Except.ok.injEq] at h
        subst h
        simp only [sizes_cons, size_eq, sizes_append]
        omega
    · cases hr : insertField field rest with
      | error e => simp [hr, Except.map] at h
      | ok merged' =>
        simp only [hr, Except.map, Except.ok.injEq] at h
        subst h
        have := ih hr
        simp only [sizes_cons]
        omega

theorem sizes_mergeLevelInto {fields into merged : List PlannedField}
    (h : mergeLevelInto into fields = .ok merged) : sizes merged ≤ sizes into + sizes fields := by
  induction fields generalizing into with
  | nil =>
    simp only [mergeLevelInto, Except.ok.injEq] at h
    subst h
    simp
  | cons field rest ih =>
    simp only [mergeLevelInto, bind, Except.bind] at h
    cases hi : insertField field into with
    | error e => simp [hi] at h
    | ok next =>
      rw [hi] at h
      have := ih h
      have := (sizes_insertField hi).2
      rw [sizes_cons]
      omega

/-- Putting a level together adds no field, so that what is below an entry has fewer than the whole:
it is what `merge` ends by. -/
theorem sizes_mergeLevel {fields merged : List PlannedField} (h : mergeLevel fields = .ok merged) :
    sizes merged ≤ sizes fields := by
  have := sizes_mergeLevelInto h
  simpa using this

/-! ## All levels -/

/-- Merges fields with one output name, on every level. A conflict on a level is told before those
below it. -/
def merge (fields : List PlannedField) : Except Rejection (List PlannedField) :=
  match _h : mergeLevel fields with
  | .error e => .error e
  | .ok merged =>
    merged.attach.mapM fun ⟨field, _hf⟩ => do
      return { field with fields := ← merge field.fields }
termination_by sizes fields
decreasing_by
  have := sizes_mergeLevel _h
  have := size_le_sizes _hf
  have := size_eq field
  omega

end PlannedField

end FeedGraph
