import FeedGraph.Proofs.Plan.Results

/-!
# Merging: what holds of fields that are put together

Two properties of whole selections, and what merging does to them. `DistinctOutputs` says that no
output name comes twice, on any level; merging brings it about, whatever it is given
(`distinctOutputs_merge`). `Throughout` says that something holds of a field and of every field
below it; merging keeps it, provided that it is not lost where two fields become one
(`throughout_merge`).

Everything rests on `insertField_ok`, which says what becomes of a field that is added to others.
-/

namespace FeedGraph

namespace PlannedField

/-- Induction on what is selected of a field. `PlannedField` is a nested inductive type, for which
the generated recursor would need a second motive for lists. -/
@[elab_as_elim]
theorem induction {P : PlannedField → Prop}
    (step : ∀ field, (∀ below ∈ field.fields, P below) → P field) (field : PlannedField) :
    P field :=
  step field fun below _hbelow => induction step below
termination_by field.size
decreasing_by
  have := size_le_sizes _hbelow
  have := size_eq field
  omega

/-- No output name comes twice in a selection, nor in any selection below it. The executor makes
objects by these names, and would lose a value if one came twice. -/
inductive DistinctOutputs : List PlannedField → Prop where
  | intro {fields : List PlannedField} : (fields.map output).Nodup →
      (∀ field ∈ fields, DistinctOutputs field.fields) → DistinctOutputs fields

/-- None comes twice in the selection itself. -/
theorem DistinctOutputs.nodup {fields : List PlannedField} (h : DistinctOutputs fields) :
    (fields.map output).Nodup := by
  cases h with
  | intro nodup _ => exact nodup

/-- Nor in what is selected of one of the fields. -/
theorem DistinctOutputs.inner {fields : List PlannedField} (h : DistinctOutputs fields) :
    ∀ field ∈ fields, DistinctOutputs field.fields := by
  cases h with
  | intro _ below => exact below

/-- Something holds of a field that is selected of the type `container`, and of every field below
it. Below a field, the container is the type that is underlying the type of its values. -/
inductive Throughout (P : String → PlannedField → Prop) : String → PlannedField → Prop where
  | intro {container : String} {field : PlannedField} : P container field →
      (∀ below ∈ field.fields, Throughout P field.type.underlying below) →
        Throughout P container field

theorem Throughout.here {P : String → PlannedField → Prop} {container : String}
    {field : PlannedField} (h : Throughout P container field) : P container field := by
  cases h with
  | intro here _ => exact here

theorem Throughout.descend {P : String → PlannedField → Prop} {container : String}
    {field : PlannedField} (h : Throughout P container field) :
    ∀ below ∈ field.fields, Throughout P field.type.underlying below := by
  cases h with
  | intro _ below => exact below

/-- From `P` to `Q`, field by field, on the way down: `kind` is what is known of a container, and is
passed on from that of a field to that of the fields below it. -/
theorem Throughout.along {P Q : String → PlannedField → Prop} {kind : String → Prop}
    (hpq : ∀ container field, kind container → P container field →
      Q container field ∧ kind field.type.underlying) {container : String} {field : PlannedField}
    (h : Throughout P container field) (hkind : kind container) : Throughout Q container field := by
  induction h with
  | intro here _ ih =>
    obtain ⟨hq, hbelow⟩ := hpq _ _ hkind here
    exact .intro hq fun below hmem => ih below hmem hbelow

theorem Throughout.mono {P Q : String → PlannedField → Prop}
    (hpq : ∀ container field, P container field → Q container field) {container : String}
    {field : PlannedField} (h : Throughout P container field) : Throughout Q container field :=
  @Throughout.along P Q (fun _ => True) (fun _ _ _ hp => ⟨hpq _ _ hp, trivial⟩) _ _ h trivial

theorem Throughout.of_forall {P : String → PlannedField → Prop}
    (h : ∀ container field, P container field) (container : String) (field : PlannedField) :
    Throughout P container field := by
  induction field using PlannedField.induction generalizing container with
  | step field ih => exact .intro (h container field) fun below hmem => ih below hmem _

/-! ## One field more -/

/-- What becomes of a field that is added: it comes last, with an output name of its own, or becomes
one with the first field of its output name, which is the same field with equal arguments. All that
is shown of merging in this module is shown from these two cases. -/
theorem insertField_ok {field : PlannedField} {fields merged : List PlannedField}
    (h : insertField field fields = .ok merged) :
    ((∀ other ∈ fields, other.output ≠ field.output) ∧ merged = fields ++ [field]) ∨
      ∃ before first after, fields = before ++ first :: after ∧
        (∀ other ∈ before, other.output ≠ field.output) ∧
        first.output = field.output ∧ first.name = field.name ∧
        Value.sameObject first.arguments field.arguments = true ∧
        merged = before ++ { first with fields := first.fields ++ field.fields } :: after := by
  induction fields generalizing merged with
  | nil =>
    obtain rfl := Except.ok.inj h
    exact Or.inl ⟨fun _ hmem => absurd hmem List.not_mem_nil, rfl⟩
  | cons first rest ih =>
    rw [insertField] at h
    by_cases ho : first.output = field.output
    · rw [if_pos ho] at h
      cases hc : conflict? first field with
      | some reason => simp [hc] at h
      | none =>
        simp only [hc] at h
        obtain rfl := Except.ok.inj h
        rw [conflict?] at hc
        split at hc
        · cases hc
        · next hname =>
          split at hc
          · cases hc
          · next hsame =>
            refine Or.inr ⟨[], first, rest, rfl, fun _ hmem => absurd hmem List.not_mem_nil, ho,
              by simpa using hname, by simpa using hsame, rfl⟩
    · rw [if_neg ho] at h
      obtain ⟨others, hothers, rfl⟩ := ok_of_map h
      rcases ih hothers with ⟨hne, rfl⟩ | ⟨before, one, after, rfl, hne, hsame, rest, hargs, rfl⟩
      · exact Or.inl ⟨List.forall_mem_cons.mpr ⟨ho, hne⟩, rfl⟩
      · exact Or.inr ⟨first :: before, one, after, rfl, List.forall_mem_cons.mpr ⟨ho, hne⟩, hsame,
          rest, hargs, rfl⟩

theorem nodup_insertField {field : PlannedField} {fields merged : List PlannedField}
    (h : insertField field fields = .ok merged) (hn : (fields.map output).Nodup) :
    (merged.map output).Nodup := by
  rcases insertField_ok h with ⟨hne, rfl⟩ | ⟨before, first, after, rfl, -, -, -, -, rfl⟩
  · rw [List.map_append, List.nodup_append]
    refine ⟨hn, by simp, ?_⟩
    intro name hname other hother
    obtain ⟨f, hf, rfl⟩ := List.mem_map.mp hname
    rw [List.map_cons, List.map_nil, List.mem_singleton] at hother
    rw [hother]
    exact hne f hf
  · have : (before ++ { first with fields := first.fields ++ field.fields } :: after).map output =
        (before ++ first :: after).map output := by
      simp [output]
    rw [this]
    exact hn

theorem insertField_ne_nil {field : PlannedField} {fields merged : List PlannedField}
    (h : insertField field fields = .ok merged) : merged ≠ [] := by
  rcases insertField_ok h with ⟨-, rfl⟩ | ⟨before, first, after, -, -, -, -, -, rfl⟩ <;> simp

/-- Merging two fields of one name keeps `P`: the field that they become is the first of them, with
what is selected of both. This is the condition on `P` under which `insertField` keeps it
throughout. -/
def Joins (P : String → PlannedField → Prop) : Prop :=
  ∀ container first second, P container first → P container second → first.name = second.name →
    first.type = second.type ∧
      P container { first with fields := first.fields ++ second.fields }

/-- In the second case of `insertField_ok`, what is below the merged field was below one of the two,
and the field itself is the hypothesis `Joins`. -/
theorem throughout_insertField {P : String → PlannedField → Prop} (hj : Joins P)
    {container : String} {field : PlannedField} {fields merged : List PlannedField}
    (h : insertField field fields = .ok merged) (hf : Throughout P container field)
    (hfs : ∀ other ∈ fields, Throughout P container other) :
    ∀ other ∈ merged, Throughout P container other := by
  rcases insertField_ok h with ⟨-, rfl⟩ | ⟨before, first, after, rfl, -, -, hname, -, rfl⟩
  · intro other hmem
    rcases List.mem_append.mp hmem with hmem | hmem
    · exact hfs other hmem
    · rw [List.mem_singleton.mp hmem]
      exact hf
  · intro other hmem
    have hfirst := hfs first (by simp)
    obtain ⟨htype, hjoin⟩ := hj _ _ _ hfirst.here hf.here hname
    rcases List.mem_append.mp hmem with hmem | hmem
    · exact hfs other (List.mem_append_left _ hmem)
    · rcases List.mem_cons.mp hmem with rfl | hmem
      · refine .intro hjoin fun below hbelow => ?_
        rcases List.mem_append.mp hbelow with hbelow | hbelow
        · exact hfirst.descend below hbelow
        · change Throughout P first.type.underlying below
          rw [htype]
          exact hf.descend below hbelow
      · exact hfs other (List.mem_append_right _ (List.mem_cons_of_mem _ hmem))

/-! ## One level -/

/-- An invariant of adding one field is one of adding them all. The hypothesis may use that the
added field is one of the given ones. -/
theorem mergeLevelInto_keeps {Q : List PlannedField → Prop} {fields : List PlannedField}
    (hq : ∀ field ∈ fields, ∀ into merged, Q into → insertField field into = .ok merged → Q merged)
    {into merged : List PlannedField} (h : mergeLevelInto into fields = .ok merged) (hi : Q into) :
    Q merged := by
  induction fields generalizing into with
  | nil =>
    obtain rfl := Except.ok.inj h
    exact hi
  | cons field rest ih =>
    rw [mergeLevelInto] at h
    obtain ⟨next, hnext, h⟩ := ok_of_bind h
    exact ih (fun f hf => hq f (List.mem_cons_of_mem _ hf)) h
      (hq field List.mem_cons_self _ _ hi hnext)

theorem nodup_mergeLevel {fields merged : List PlannedField} (h : mergeLevel fields = .ok merged) :
    (merged.map output).Nodup :=
  mergeLevelInto_keeps (Q := fun fields => (fields.map output).Nodup)
    (fun _ _ _ _ hi h => nodup_insertField h hi) h List.nodup_nil

theorem mergeLevel_ne_nil {fields merged : List PlannedField} (h : mergeLevel fields = .ok merged)
    (hne : fields ≠ []) : merged ≠ [] := by
  cases fields with
  | nil => exact absurd rfl hne
  | cons field rest =>
    rw [mergeLevel, mergeLevelInto] at h
    obtain ⟨next, hnext, h⟩ := ok_of_bind h
    exact mergeLevelInto_keeps (Q := (· ≠ [])) (fun _ _ _ _ _ h => insertField_ne_nil h) h
      (insertField_ne_nil hnext)

theorem throughout_mergeLevel {P : String → PlannedField → Prop} (hj : Joins P)
    {container : String} {fields merged : List PlannedField} (h : mergeLevel fields = .ok merged)
    (hfs : ∀ field ∈ fields, Throughout P container field) :
    ∀ field ∈ merged, Throughout P container field :=
  mergeLevelInto_keeps (Q := fun fields => ∀ field ∈ fields, Throughout P container field)
    (fun field hmem _ _ hi h => throughout_insertField hj h (hfs field hmem) hi) h
    (fun _ hmem => absurd hmem List.not_mem_nil)

/-! ## All levels -/

/-- `merge` by its two steps, as a relation: first one level is put together, without a look at what
is below, and then each of its fields is given what is merged of its own fields. -/
theorem merge_ok {fields merged : List PlannedField} (h : merge fields = .ok merged) :
    ∃ level, mergeLevel fields = .ok level ∧
      List.Forall₂ (fun field result => ∃ below, merge field.fields = .ok below ∧
        result = { field with fields := below }) level merged := by
  rw [merge] at h
  split at h
  · cases h
  · next level hlevel =>
    refine ⟨level, hlevel, ?_⟩
    have each := forall₂_of_mapM h
    rw [← List.attach_map_subtype_val level, List.forall₂_map_left_iff]
    refine each.imp fun field result hresult => ?_
    obtain ⟨below, hbelow, hresult⟩ := ok_of_bind hresult
    exact ⟨below, hbelow, (Except.ok.inj hresult).symm⟩

theorem map_output_eq {level merged : List PlannedField} {R : PlannedField → PlannedField → Prop}
    (h : List.Forall₂ R level merged) (hr : ∀ field result, R field result →
      result.output = field.output) : merged.map output = level.map output := by
  induction h with
  | nil => rfl
  | cons hfirst _ ih => rw [List.map_cons, List.map_cons, hr _ _ hfirst, ih]

/-- The induction is that of `merge`. On the top level the output names are different because
`mergeLevel` has put equal ones together; merging what is below does not change them. -/
theorem distinctOutputs_merge {fields merged : List PlannedField} (h : merge fields = .ok merged) :
    DistinctOutputs merged := by
  induction fields using merge.induct generalizing merged with
  | case1 fields rejection hlevel =>
    obtain ⟨level, hlevel', -⟩ := merge_ok h
    rw [hlevel] at hlevel'
    cases hlevel'
  | case2 fields level hlevel ih =>
    obtain ⟨level', hlevel', each⟩ := merge_ok h
    obtain rfl := Except.ok.inj (hlevel.symm.trans hlevel')
    refine .intro ?_ fun result hmem => ?_
    · rw [map_output_eq each (by rintro field _ ⟨below, -, rfl⟩; rfl)]
      exact nodup_mergeLevel hlevel
    · obtain ⟨field, hfield, below, hbelow, rfl⟩ := exists_of_forall₂ each hmem
      exact ih field hfield hbelow

/-- So what is selected of an object is not empty after merging, if it was not before. -/
theorem merge_ne_nil {fields merged : List PlannedField} (h : merge fields = .ok merged)
    (hne : fields ≠ []) : merged ≠ [] := by
  obtain ⟨level, hlevel, each⟩ := merge_ok h
  rintro rfl
  cases each
  exact mergeLevel_ne_nil hlevel hne rfl

/-- Merging adds no field: the number of fields on all levels, by `sizes`, is at most what it
was. -/
theorem sizes_merge {fields merged : List PlannedField} (h : merge fields = .ok merged) :
    sizes merged ≤ sizes fields := by
  induction fields using merge.induct generalizing merged with
  | case1 fields rejection hlevel =>
    obtain ⟨level, hlevel', -⟩ := merge_ok h
    rw [hlevel] at hlevel'
    cases hlevel'
  | case2 fields level hlevel ih =>
    obtain ⟨level', hlevel', each⟩ := merge_ok h
    obtain rfl := Except.ok.inj (hlevel.symm.trans hlevel')
    have hsizes : sizes merged ≤ sizes level := by
      clear h hlevel hlevel'
      induction each with
      | nil => exact Nat.le_refl _
      | @cons field result rest others hfirst _ ihrest =>
        obtain ⟨below, hbelow, rfl⟩ := hfirst
        have hinner := ih field List.mem_cons_self hbelow
        have hrest := ihrest fun other hother => ih other (List.mem_cons_of_mem _ hother)
        rw [sizes_cons, sizes_cons, size_eq, size_eq field]
        change sizes below + 1 + sizes others ≤ _
        omega
    exact Nat.le_trans hsizes (sizes_mergeLevel hlevel)

@[simp] theorem merge_nil : merge [] = .ok [] := by
  rw [merge]
  rfl

/-- Something that is not lost when what is below a field is replaced, by something if there was
something and by nothing if there was nothing. With `Joins` this is all that has to be known of a
property for `throughout_merge`. -/
def Replaces (P : String → PlannedField → Prop) : Prop :=
  ∀ container field below, P container field → (below = [] ↔ field.fields = []) →
    P container { field with fields := below }

/-- The induction is that of `merge`: putting the level together keeps `P` by `Joins`, and giving a
field its merged fields by `Replaces`, since `merge` makes an empty list of an empty one only. -/
theorem throughout_merge {P : String → PlannedField → Prop} (hj : Joins P) (hr : Replaces P)
    {container : String} {fields merged : List PlannedField} (h : merge fields = .ok merged)
    (hfs : ∀ field ∈ fields, Throughout P container field) :
    ∀ field ∈ merged, Throughout P container field := by
  induction fields using merge.induct generalizing merged container with
  | case1 fields rejection hlevel =>
    obtain ⟨level, hlevel', -⟩ := merge_ok h
    rw [hlevel] at hlevel'
    cases hlevel'
  | case2 fields level hlevel ih =>
    obtain ⟨level', hlevel', each⟩ := merge_ok h
    obtain rfl := Except.ok.inj (hlevel.symm.trans hlevel')
    intro result hmem
    obtain ⟨field, hfield, below, hbelow, rfl⟩ := exists_of_forall₂ each hmem
    have hthroughout := throughout_mergeLevel hj hlevel hfs field hfield
    refine .intro (hr _ _ _ hthroughout.here ?_) (ih field hfield hbelow hthroughout.descend)
    constructor
    · intro hnil
      by_contra hne
      exact merge_ne_nil hbelow hne hnil
    · intro hnil
      rw [hnil, merge_nil] at hbelow
      exact (Except.ok.inj hbelow).symm

end PlannedField

end FeedGraph
