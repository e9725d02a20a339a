import FeedGraph.Proofs.Plan.Merging
import FeedGraph.Proofs.Document.Equality

/-!
# Regrouping: fields that are merged in parts

What is selected of a field is merged when the field is checked, and once more, with what is
selected of others, when the field is put together with them. None of it shows: fields of which some
are merged already (`MergedBelow`) are merged to the same fields as before, or refused for the same
reason (`MergedBelow.merge_eq`).

Two lists of fields are `Alike` if it never matters which of them is merged, whatever stands before
and behind them. Putting one level together gives a list that is alike (`alike_mergeLevel`), for
whatever fields come behind an entry can as well be added to it early (`mergeLevelInto_late`).
Replacing what is selected of fields by something alike gives a list that is alike
(`alike_of_forall₂`).
-/

namespace FeedGraph

namespace PlannedField

/-! ## Two fields as one -/

/-- Two fields can be one: they are the same field, with equal arguments. This is when `conflict?`
is none. -/
def Agrees (first second : PlannedField) : Prop :=
  first.name = second.name ∧ Value.sameObject first.arguments second.arguments = true

instance (first second : PlannedField) : Decidable (Agrees first second) :=
  inferInstanceAs (Decidable (_ ∧ _))

theorem conflict?_eq_none {first second : PlannedField} :
    conflict? first second = none ↔ Agrees first second := by
  rw [conflict?, Agrees]
  by_cases hname : first.name = second.name <;> simp [hname]

theorem Agrees.trans {first second third : PlannedField} (h : Agrees first second)
    (h' : Agrees second third) : Agrees first third := by
  refine ⟨h.1.trans h'.1, ?_⟩
  rw [← Value.same_object]
  exact Value.same_trans (b := .object second.arguments) h.2 h'.2

/-- A field without what is selected of it. -/
def head (field : PlannedField) : PlannedField := { field with fields := [] }

/-- Whether fields conflict does not depend on what is selected of them, so that it is the same for
a field before and after its own fields are merged. -/
theorem conflict?_of_head {first second other another : PlannedField}
    (h : first.head = other.head) (h' : second.head = another.head) :
    conflict? first second = conflict? other another := by
  simp only [head, mk.injEq] at h h'
  rw [conflict?, conflict?, h.2.1, h.2.2.2.1, h'.2.1, h'.2.2.2.1]

theorem output_of_head {field other : PlannedField} (h : field.head = other.head) :
    field.output = other.output := by
  simp only [head, mk.injEq] at h
  rw [output, output, h.1, h.2.1]

theorem position_of_head {field other : PlannedField} (h : field.head = other.head) :
    field.position = other.position := by
  simp only [head, mk.injEq] at h
  exact h.2.2.2.2.2

/-- The field that two fields become, as in `insertField`. -/
def join (first second : PlannedField) : PlannedField :=
  { first with fields := first.fields ++ second.fields }

@[simp] theorem head_join (first second : PlannedField) : (first.join second).head = first.head :=
  rfl

@[simp] theorem output_join (first second : PlannedField) :
    (first.join second).output = first.output :=
  rfl

/-! ## One level, in two parts -/

variable {field late first : PlannedField} {fields rest : List PlannedField}

theorem insertField_cons_eq (h : first.output = field.output) :
    insertField field (first :: rest) =
      match conflict? first field with
      | some reason => .error (.conflict first.output reason field.position)
      | none => .ok (first.join field :: rest) := by
  rw [insertField, if_pos h]
  rfl

theorem insertField_cons_ne (h : first.output ≠ field.output) :
    insertField field (first :: rest) = (insertField field rest).map (first :: ·) := by
  rw [insertField, if_neg h]

/-- Adds what is selected of a field to what is selected of the entry of its output name. Unlike
`insertField` it is a function of all lists, without an error; the two are the same where the entry
is there and `Agrees`. -/
def joinAt (field : PlannedField) (fields : List PlannedField) : List PlannedField :=
  fields.map fun entry => if entry.output = field.output then entry.join field else entry

theorem joinAt_cons_eq (h : first.output = field.output) :
    joinAt field (first :: rest) = first.join field :: joinAt field rest := by
  rw [joinAt, List.map_cons, if_pos h, joinAt]

theorem joinAt_cons_ne (h : first.output ≠ field.output) :
    joinAt field (first :: rest) = first :: joinAt field rest := by
  rw [joinAt, List.map_cons, if_neg h, joinAt]

theorem joinAt_of_absent (h : field.output ∉ fields.map output) : joinAt field fields = fields := by
  induction fields with
  | nil => rfl
  | cons first rest ih =>
    rw [List.map_cons, List.mem_cons, not_or] at h
    rw [joinAt_cons_ne (Ne.symm h.1), ih h.2]

theorem map_output_joinAt (field : PlannedField) (fields : List PlannedField) :
    (joinAt field fields).map output = fields.map output := by
  rw [joinAt, List.map_map]
  refine List.map_congr_left fun entry _ => ?_
  rw [Function.comp_apply]
  split <;> rfl

theorem insertField_of_agrees (hdistinct : (fields.map output).Nodup)
    (hentry : ∃ entry ∈ fields, entry.output = field.output ∧ Agrees entry field) :
    insertField field fields = .ok (joinAt field fields) := by
  induction fields with
  | nil => simp at hentry
  | cons first rest ih =>
    rw [List.map_cons, List.nodup_cons] at hdistinct
    obtain ⟨entry, hmem, houtput, hagrees⟩ := hentry
    rcases List.mem_cons.mp hmem with rfl | hmem
    · rw [insertField_cons_eq houtput, conflict?_eq_none.mpr hagrees, joinAt_cons_eq houtput,
        joinAt_of_absent (houtput ▸ hdistinct.1)]
    · have hne : first.output ≠ field.output := fun heq =>
        hdistinct.1 (List.mem_map.mpr ⟨entry, hmem, houtput.trans heq.symm⟩)
      rw [insertField_cons_ne hne, ih hdistinct.2 ⟨entry, hmem, houtput, hagrees⟩,
        joinAt_cons_ne hne]
      rfl

/-- `joinAt` and `insertField` for different output names can be exchanged, as they change different
entries. -/
theorem insertField_joinAt (hne : field.output ≠ late.output) :
    insertField field (joinAt late fields) = (insertField field fields).map (joinAt late) := by
  induction fields with
  | nil =>
    change Except.ok [field] = .ok (joinAt late [field])
    rw [joinAt_cons_ne hne]
    rfl
  | cons first rest ih =>
    by_cases hfirst : first.output = field.output
    · have hlate : first.output ≠ late.output := hfirst ▸ hne
      rw [joinAt_cons_ne hlate, insertField_cons_eq hfirst, insertField_cons_eq hfirst]
      cases conflict? first field with
      | some reason => rfl
      | none =>
        change Except.ok (first.join field :: joinAt late rest) =
          .ok (joinAt late (first.join field :: rest))
        rw [joinAt_cons_ne (show (first.join field).output ≠ late.output from hlate)]
    · rw [insertField_cons_ne hfirst]
      by_cases hlate : first.output = late.output
      · rw [joinAt_cons_eq hlate,
          insertField_cons_ne (show (first.join late).output ≠ field.output from hfirst), ih]
        cases insertField field rest with
        | error e => rfl
        | ok merged => exact congrArg Except.ok (joinAt_cons_eq hlate).symm
      · rw [joinAt_cons_ne hlate, insertField_cons_ne hfirst, ih]
        cases insertField field rest with
        | error e => rfl
        | ok merged => exact congrArg Except.ok (joinAt_cons_ne hlate).symm

/-- For one output name, adding `field` and then `late` is adding the field they become: what is
selected of them is appended in the same order either way. -/
theorem insertField_join (hdistinct : (fields.map output).Nodup)
    (houtput : field.output = late.output) :
    insertField (field.join late) fields = (insertField field fields).map (joinAt late) := by
  induction fields with
  | nil =>
    change Except.ok [field.join late] = .ok (joinAt late [field])
    rw [joinAt_cons_eq houtput]
    rfl
  | cons first rest ih =>
    rw [List.map_cons, List.nodup_cons] at hdistinct
    by_cases hfirst : first.output = field.output
    · have hlate : first.output = late.output := hfirst.trans houtput
      rw [insertField_cons_eq (show first.output = (field.join late).output from hfirst),
        insertField_cons_eq hfirst, conflict?_of_head rfl (head_join field late)]
      cases conflict? first field with
      | some reason => rfl
      | none =>
        change Except.ok (first.join (field.join late) :: rest) =
          .ok (joinAt late (first.join field :: rest))
        rw [joinAt_cons_eq (show (first.join field).output = late.output from hlate),
          joinAt_of_absent (hlate ▸ hdistinct.1)]
        simp only [join, List.append_assoc]
    · have hlate : first.output ≠ late.output := houtput ▸ hfirst
      rw [insertField_cons_ne (show first.output ≠ (field.join late).output from hfirst),
        insertField_cons_ne hfirst, ih hdistinct.2]
      cases insertField field rest with
      | error e => rfl
      | ok merged => exact congrArg Except.ok (joinAt_cons_ne hlate).symm

theorem agrees_insertField {merged : List PlannedField}
    (h : insertField field fields = .ok merged)
    (hentry : ∃ entry ∈ fields, entry.output = late.output ∧ Agrees entry late) :
    ∃ entry ∈ merged, entry.output = late.output ∧ Agrees entry late := by
  obtain ⟨entry, hmem, houtput, hagrees⟩ := hentry
  rcases insertField_ok h with ⟨-, rfl⟩ | ⟨before, first, after, rfl, -, -, -, -, rfl⟩
  · exact ⟨entry, List.mem_append_left _ hmem, houtput, hagrees⟩
  · rcases List.mem_append.mp hmem with hmem | hmem
    · exact ⟨entry, List.mem_append_left _ hmem, houtput, hagrees⟩
    · rcases List.mem_cons.mp hmem with rfl | hmem
      · exact ⟨_, List.mem_append_right _ List.mem_cons_self, houtput, hagrees⟩
      · exact ⟨entry, List.mem_append_right _ (List.mem_cons_of_mem _ hmem), houtput, hagrees⟩

theorem entry_insertField {merged : List PlannedField}
    (h : insertField field fields = .ok merged) (houtput : field.output = late.output)
    (hagrees : Agrees field late) :
    ∃ entry ∈ merged, entry.output = late.output ∧ Agrees entry late := by
  rcases insertField_ok h with ⟨-, rfl⟩ | ⟨before, first, after, -, -, hout, hname, hargs, rfl⟩
  · exact ⟨field, List.mem_append_right _ (List.mem_singleton_self _), houtput, hagrees⟩
  · refine ⟨_, List.mem_append_right _ List.mem_cons_self, hout.trans houtput, ?_⟩
    have hentry : Agrees first field := ⟨hname, hargs⟩
    exact hentry.trans hagrees

theorem mergeLevelInto_append (into fields others : List PlannedField) :
    mergeLevelInto into (fields ++ others) =
      mergeLevelInto into fields >>= fun merged => mergeLevelInto merged others := by
  induction fields generalizing into with
  | nil => rfl
  | cons field rest ih =>
    rw [List.cons_append, mergeLevelInto, mergeLevelInto]
    cases insertField field into with
    | error e => rfl
    | ok next => exact ih next

/-- The exchange on which the module rests: a field that comes behind fields of other output names
can be added to its entry before them. An entry has to be there, and to agree with it, so that
nothing can be refused on its account; what the others are refused for is then the same. -/
theorem mergeLevelInto_late {into others : List PlannedField}
    (hdistinct : (into.map output).Nodup)
    (hentry : ∃ entry ∈ into, entry.output = late.output ∧ Agrees entry late)
    (hothers : ∀ other ∈ others, other.output ≠ late.output) :
    mergeLevelInto into (others ++ [late]) = mergeLevelInto (joinAt late into) others := by
  induction others generalizing into with
  | nil =>
    rw [List.nil_append, mergeLevelInto, mergeLevelInto]
    rw [insertField_of_agrees hdistinct hentry]
    rfl
  | cons other rest ih =>
    rw [List.forall_mem_cons] at hothers
    rw [List.cons_append, mergeLevelInto, mergeLevelInto, insertField_joinAt hothers.1]
    cases hnext : insertField other into with
    | error e => rfl
    | ok next =>
      exact ih (nodup_insertField hnext hdistinct) (agrees_insertField hnext hentry) hothers.2

/-- One step of `mergeLevelInto_merged`. If the field has become one with an earlier one, then it is
moved forward to that one by `mergeLevelInto_late`. -/
theorem mergeLevelInto_insertField {into merged : List PlannedField}
    (hinto : (into.map output).Nodup) (hdistinct : (fields.map output).Nodup)
    (h : insertField field fields = .ok merged) :
    mergeLevelInto into (fields ++ [field]) = mergeLevelInto into merged := by
  rcases insertField_ok h with ⟨-, rfl⟩ | ⟨before, first, after, rfl, -, hout, hname, hargs, rfl⟩
  · rfl
  · rw [List.append_assoc, mergeLevelInto_append, mergeLevelInto_append]
    cases hnext : mergeLevelInto into before with
    | error e => rfl
    | ok next =>
      have hnext' : (next.map output).Nodup :=
        mergeLevelInto_keeps (Q := fun fields => (fields.map output).Nodup)
          (fun _ _ _ _ hi h => nodup_insertField h hi) hnext hinto
      have hafter : ∀ other ∈ after, other.output ≠ field.output := by
        rw [List.map_append, List.map_cons, List.nodup_append, List.nodup_cons] at hdistinct
        intro other hmem heq
        exact hdistinct.2.1.1 (List.mem_map.mpr ⟨other, hmem, heq.trans hout.symm⟩)
      change mergeLevelInto next (first :: (after ++ [field])) =
        mergeLevelInto next (first.join field :: after)
      rw [mergeLevelInto, mergeLevelInto, insertField_join hnext' hout]
      cases hfirst : insertField first next with
      | error e => rfl
      | ok start =>
        exact mergeLevelInto_late (nodup_insertField hfirst hnext')
          (entry_insertField hfirst hout ⟨hname, hargs⟩) hafter

/-- Putting fields together before they are added to a level makes no difference to the level. The
induction is on the fields that are put in; those already put together are `fields`. -/
theorem mergeLevelInto_merged {into others merged : List PlannedField}
    (hinto : (into.map output).Nodup) (hdistinct : (fields.map output).Nodup)
    (h : mergeLevelInto fields others = .ok merged) :
    mergeLevelInto into (fields ++ others) = mergeLevelInto into merged := by
  induction others generalizing fields with
  | nil =>
    obtain rfl := Except.ok.inj h
    rw [List.append_nil]
  | cons other rest ih =>
    rw [mergeLevelInto] at h
    obtain ⟨next, hnext, h⟩ := ok_of_bind h
    calc mergeLevelInto into (fields ++ other :: rest)
        = mergeLevelInto into ((fields ++ [other]) ++ rest) := by
          rw [List.append_assoc, List.singleton_append]
      _ = mergeLevelInto into (next ++ rest) := by
          rw [mergeLevelInto_append, mergeLevelInto_insertField hinto hdistinct hnext,
            ← mergeLevelInto_append]
      _ = mergeLevelInto into merged := ih (nodup_insertField hnext hdistinct) h

/-! ## All levels -/

theorem merge_eq (fields : List PlannedField) :
    merge fields = mergeLevel fields >>= fun level => level.mapM fun field => do
      return { field with fields := ← merge field.fields } := by
  rw [merge]
  split
  · next e h => rw [h]; rfl
  · next level h =>
    rw [h]
    calc _ = level.attach.unattach.mapM _ := List.mapM_subtype fun field _ => by rfl
      _ = _ := by rw [List.unattach_attach]; rfl

/-- It does not matter which of two lists is merged, whatever stands before and behind them. The
result or the rejection is the same; it is this congruence that lets parts of a selection be
replaced one after the other. -/
def Alike (fields others : List PlannedField) : Prop :=
  ∀ before after, merge (before ++ fields ++ after) = merge (before ++ others ++ after)

namespace Alike

variable {others more : List PlannedField}

theorem refl (fields : List PlannedField) : Alike fields fields := fun _ _ => rfl

theorem trans (h : Alike fields others) (h' : Alike others more) : Alike fields more :=
  fun before after => (h before after).trans (h' before after)

theorem merge_eq (h : Alike fields others) : merge fields = merge others := by
  simpa using h [] []

theorem append {fields' others' : List PlannedField} (h : Alike fields others)
    (h' : Alike fields' others') : Alike (fields ++ fields') (others ++ others') := by
  intro before after
  calc merge (before ++ (fields ++ fields') ++ after)
      = merge (before ++ fields ++ (fields' ++ after)) := by simp only [List.append_assoc]
    _ = merge (before ++ others ++ (fields' ++ after)) := h _ _
    _ = merge (before ++ others ++ fields' ++ after) := by simp only [List.append_assoc]
    _ = merge (before ++ others ++ others' ++ after) := h' _ _
    _ = merge (before ++ (others ++ others') ++ after) := by simp only [List.append_assoc]

end Alike

/-- One level of it put together: what stands before has been put into a level by then, to which the
fields or the level itself are added (`mergeLevelInto_merged`). -/
theorem alike_mergeLevel {level : List PlannedField} (h : mergeLevel fields = .ok level) :
    Alike fields level := by
  intro before after
  have hlevel : mergeLevel (before ++ fields ++ after) = mergeLevel (before ++ level ++ after) := by
    rw [mergeLevel, mergeLevel, List.append_assoc, List.append_assoc, mergeLevelInto_append,
      mergeLevelInto_append]
    cases hbefore : mergeLevelInto [] before with
    | error e => rfl
    | ok into =>
      change mergeLevelInto into (fields ++ after) = mergeLevelInto into (level ++ after)
      have hregrouped : mergeLevelInto into ([] ++ fields) = mergeLevelInto into level :=
        mergeLevelInto_merged (nodup_mergeLevel hbefore) (by simp) h
      rw [List.nil_append] at hregrouped
      rw [mergeLevelInto_append, mergeLevelInto_append, hregrouped]
  rw [PlannedField.merge_eq, PlannedField.merge_eq, hlevel]

/-- Two fields that differ at most in what is selected of them, in a way that does not matter. -/
def FieldAlike (field other : PlannedField) : Prop :=
  field.head = other.head ∧ Alike field.fields other.fields

/-- Adding a field keeps lists `FieldAlike`, entry by entry. Both are refused at once and for the
same reason, as the heads are equal. -/
theorem insertField_alike {other : PlannedField} {others : List PlannedField}
    (h : FieldAlike field other) (hs : List.Forall₂ FieldAlike fields others) :
    Parallel (List.Forall₂ FieldAlike) (insertField field fields) (insertField other others) := by
  induction hs with
  | nil => exact .ok (.cons h .nil)
  | @cons first second rest rest' hfirst hrest ih =>
    rw [insertField, insertField, output_of_head hfirst.1, output_of_head h.1,
      conflict?_of_head hfirst.1 h.1, position_of_head h.1]
    by_cases houtput : second.output = other.output
    · rw [if_pos houtput, if_pos houtput]
      cases conflict? second other with
      | some reason => exact .error _
      | none =>
        refine .ok (.cons ⟨hfirst.1, ?_⟩ hrest)
        exact hfirst.2.append h.2
    · rw [if_neg houtput, if_neg houtput]
      exact ih.bind (f := fun merged => .ok (first :: merged)) (g := fun merged => .ok (second :: merged))
        fun _ _ hmerged => .ok (.cons hfirst hmerged)

theorem mergeLevelInto_alike {into into' others : List PlannedField}
    (hinto : List.Forall₂ FieldAlike into into') (hs : List.Forall₂ FieldAlike fields others) :
    Parallel (List.Forall₂ FieldAlike) (mergeLevelInto into fields) (mergeLevelInto into' others) := by
  induction hs generalizing into into' with
  | nil => exact .ok hinto
  | cons hfirst _ ih =>
    rw [mergeLevelInto, mergeLevelInto]
    exact (insertField_alike hfirst hinto).bind fun _ _ hnext => ih hnext

/-- From fields that are alike one by one to lists that are `Alike`: their levels are alike by
`insertField_alike`, and then what is selected of the entries is merged to the same by the
definition of `FieldAlike`. -/
theorem alike_of_forall₂ {others : List PlannedField}
    (h : List.Forall₂ FieldAlike fields others) : Alike fields others := by
  intro before after
  have hlevel : Parallel (List.Forall₂ FieldAlike) (mergeLevel (before ++ fields ++ after))
      (mergeLevel (before ++ others ++ after)) := by
    have hself : ∀ same : List PlannedField, List.Forall₂ FieldAlike same same := fun same =>
      List.forall₂_same.mpr fun field _ => ⟨rfl, .refl field.fields⟩
    refine mergeLevelInto_alike .nil ?_
    exact List.rel_append (List.rel_append (hself before) h) (hself after)
  rw [merge_eq, merge_eq]
  refine hlevel.bind_eq fun level level' hrel => mapM_eq_of_forall₂ (hrel.imp ?_)
  rintro field other ⟨hhead, hbelow⟩
  rw [hbelow.merge_eq]
  cases merge other.fields with
  | error e => rfl
  | ok below => exact congrArg (fun head => Except.ok { head with fields := below }) hhead

/-- The induction is that of `merge`: `alike_mergeLevel` for the level and `alike_of_forall₂` for
what is below its entries. -/
theorem alike_merge {merged : List PlannedField} (h : merge fields = .ok merged) :
    Alike fields merged := by
  induction fields using merge.induct generalizing merged with
  | case1 fields rejection hlevel =>
    obtain ⟨level, hlevel', -⟩ := merge_ok h
    rw [hlevel] at hlevel'
    cases hlevel'
  | case2 fields level hlevel ih =>
    obtain ⟨level', hlevel', each⟩ := merge_ok h
    obtain rfl := Except.ok.inj (hlevel.symm.trans hlevel')
    refine (alike_mergeLevel hlevel).trans (alike_of_forall₂ ?_)
    refine ((List.forall₂_and_left _ _).mpr ⟨fun _ hmem => hmem, each⟩).imp ?_
    rintro field _ ⟨hmem, below, hbelow, rfl⟩
    exact ⟨rfl, ih field hmem hbelow⟩

/-! ## Parts that are merged already -/

/-- Fields, and the same fields when at some places what is selected below them is already merged.
Each field may have been treated or not, after what is below it has been treated in the same way;
this is how checking a selection leaves its parts, which merges below each field it checks. -/
inductive MergedBelow : List PlannedField → List PlannedField → Prop where
  /-- nothing to merge -/
  | nil : MergedBelow [] []
  /-- a field of which what is selected is left as it is, apart from what is below it -/
  | kept {field : PlannedField} {inner rest others : List PlannedField} :
      MergedBelow field.fields inner → MergedBelow rest others →
        MergedBelow (field :: rest) ({ field with fields := inner } :: others)
  /-- a field of which what is selected is merged -/
  | merged {field : PlannedField} {inner below rest others : List PlannedField} :
      MergedBelow field.fields inner → merge inner = .ok below → MergedBelow rest others →
        MergedBelow (field :: rest) ({ field with fields := below } :: others)

namespace MergedBelow

variable {nested : List PlannedField}

theorem forall₂ (h : MergedBelow fields nested) : List.Forall₂ FieldAlike fields nested := by
  induction h with
  | nil => exact .nil
  | kept _ _ ihinner ihrest => exact .cons ⟨rfl, alike_of_forall₂ ihinner⟩ ihrest
  | merged _ hbelow _ ihinner ihrest =>
    exact .cons ⟨rfl, (alike_of_forall₂ ihinner).trans (alike_merge hbelow)⟩ ihrest

/-- Merging parts early makes no difference, neither to what the fields become nor to why they are
refused. -/
theorem merge_eq (h : MergedBelow fields nested) : merge nested = merge fields :=
  (alike_of_forall₂ h.forall₂).merge_eq.symm

end MergedBelow

theorem merge_merge {merged : List PlannedField} (h : merge fields = .ok merged) :
    merge merged = .ok merged :=
  (alike_merge h).merge_eq.symm.trans h

end PlannedField

end FeedGraph
