import Mathlib.Data.List.Induction
import Mathlib.Data.List.Nodup
import FeedGraph.Proofs.Plan.Regrouping

/-!
# Normalization: which fields can be merged, and into what

The response path of a field is made of the output names from the root down to the field itself. In
a selection that is not merged several fields can have one path. `PlannedField.merge_normalizes`
says that fields are merged if and only if any two with one path are the same field with equal
arguments, and that afterwards each path is that of one field, the first that had it.

Paths are long and merging goes level by level. The two meet in `siblings`, the fields below one
path: those below the empty path are the fields themselves, and those below a longer one are those
below its tail in what is selected of all fields with the output name at its head (`gathered`).
Merging does to each `gathered` what it does to the whole (`merge_gathered`), so that what holds of
one level (`Gathers`) holds below every path.
-/

namespace FeedGraph

namespace PlannedField

/-! ## Paths -/

mutual

/-- A field and the fields below it, each behind its path, in the order of the document. The path is
a list of output names, from the field down. -/
def occurrencesOf : PlannedField → List (List String × PlannedField)
  | ⟨alias?, name, type, arguments, fields, position⟩ =>
    let field : PlannedField := ⟨alias?, name, type, arguments, fields, position⟩
    ([field.output], field) ::
      (occurrences fields).map fun below => (field.output :: below.1, below.2)

def occurrences : List PlannedField → List (List String × PlannedField)
  | [] => []
  | field :: rest => occurrencesOf field ++ occurrences rest

end

/-- The fields whose path is one output name longer than a given one, in the order of the document.
They are the fields that may have to be merged with each other, and between which the order is
kept. -/
def siblings (fields : List PlannedField) (parent : List String) : List PlannedField :=
  ((occurrences fields).filter (·.1.dropLast = parent)).map (·.2)

/-- What is selected of all fields of an output name, together: what `merge` merges below the entry
of that name. -/
def gathered (fields : List PlannedField) (name : String) : List PlannedField :=
  (fields.filter (·.output = name)).flatMap (·.fields)

variable {field : PlannedField} {fields rest : List PlannedField} {name : String}
  {path parent : List String}

theorem occurrences_cons : occurrences (field :: rest) =
    ([field.output], field) ::
      (occurrences field.fields).map (fun below => (field.output :: below.1, below.2)) ++
        occurrences rest := by
  cases field
  rfl

theorem occurrences_append (fields others : List PlannedField) :
    occurrences (fields ++ others) = occurrences fields ++ occurrences others := by
  induction fields with
  | nil => rfl
  | cons field rest ih => rw [List.cons_append, occurrences, occurrences, ih, List.append_assoc]

/-- Induction on fields and what is selected of them, with one hypothesis for the inner and one for
the other fields, as the definition of `occurrences` goes. -/
@[elab_as_elim]
theorem forest_induction {P : List PlannedField → Prop} (nil : P [])
    (cons : ∀ field rest, P field.fields → P rest → P (field :: rest))
    (fields : List PlannedField) : P fields :=
  match fields with
  | [] => nil
  | field :: rest =>
    cons field rest (forest_induction nil cons field.fields) (forest_induction nil cons rest)
termination_by sizes fields
decreasing_by
  all_goals
    have := size_eq field
    rw [sizes_cons]
    omega

theorem path_eq {occurrence : List String × PlannedField} (h : occurrence ∈ occurrences fields) :
    occurrence.1 ≠ [] ∧ occurrence.1 = occurrence.1.dropLast ++ [occurrence.2.output] := by
  induction fields using forest_induction generalizing occurrence with
  | nil => cases h
  | cons field rest ihinner ihrest =>
    rw [occurrences_cons, List.mem_append, List.mem_cons, List.mem_map] at h
    rcases h with (rfl | ⟨below, hbelow, rfl⟩) | h
    · exact ⟨List.cons_ne_nil _ _, rfl⟩
    · obtain ⟨hne, heq⟩ := ihinner hbelow
      refine ⟨List.cons_ne_nil _ _, ?_⟩
      rw [List.dropLast_cons_of_ne_nil hne, List.cons_append, ← heq]
    · exact ihrest h

theorem mem_siblings_iff :
    field ∈ siblings fields parent ↔ (parent ++ [field.output], field) ∈ occurrences fields := by
  simp only [siblings, List.mem_map, List.mem_filter, decide_eq_true_iff]
  constructor
  · rintro ⟨occurrence, ⟨hmem, rfl⟩, rfl⟩
    rw [← (path_eq hmem).2]
    exact hmem
  · intro hmem
    exact ⟨_, ⟨hmem, List.dropLast_concat⟩, rfl⟩

theorem mem_paths_iff : path ∈ (occurrences fields).map (·.1) ↔
    ∃ parent name, name ∈ (siblings fields parent).map output ∧ path = parent ++ [name] := by
  simp only [List.mem_map]
  constructor
  · rintro ⟨occurrence, hmem, rfl⟩
    have hpath := (path_eq hmem).2
    refine ⟨_, _, ⟨occurrence.2, ?_, rfl⟩, hpath⟩
    rw [mem_siblings_iff, ← hpath]
    exact hmem
  · rintro ⟨parent, _, ⟨field, hfield, rfl⟩, rfl⟩
    exact ⟨_, mem_siblings_iff.mp hfield, rfl⟩

theorem siblings_append (fields others : List PlannedField) (parent : List String) :
    siblings (fields ++ others) parent = siblings fields parent ++ siblings others parent := by
  rw [siblings, occurrences_append, List.filter_append, List.map_append, siblings, siblings]

/-- The first of the two equations for `siblings`: below the empty path are the fields
themselves. -/
theorem siblings_root (fields : List PlannedField) : siblings fields [] = fields := by
  induction fields with
  | nil => rfl
  | cons field rest ih =>
    have hbelow : ((occurrences field.fields).map fun below =>
        (field.output :: below.1, below.2)).filter (·.1.dropLast = []) = [] := by
      rw [List.filter_eq_nil_iff]
      intro occurrence hmem
      obtain ⟨below, hbelow, rfl⟩ := List.mem_map.mp hmem
      rw [decide_eq_true_iff, List.dropLast_cons_of_ne_nil (path_eq hbelow).1]
      exact List.cons_ne_nil _ _
    rw [siblings] at ih ⊢
    rw [occurrences_cons, List.filter_append, List.filter_cons_of_pos (by simp), hbelow,
      List.map_append, ih]
    rfl

theorem gathered_cons_eq (h : field.output = name) :
    gathered (field :: rest) name = field.fields ++ gathered rest name := by
  rw [gathered, List.filter_cons_of_pos (by simpa using h), List.flatMap_cons, gathered]

theorem gathered_cons_ne (h : field.output ≠ name) :
    gathered (field :: rest) name = gathered rest name := by
  rw [gathered, List.filter_cons_of_neg (by simpa using h), gathered]

theorem gathered_of_absent (h : name ∉ fields.map output) : gathered fields name = [] := by
  induction fields with
  | nil => rfl
  | cons field rest ih =>
    rw [List.map_cons, List.mem_cons, not_or] at h
    rw [gathered_cons_ne (Ne.symm h.1), ih h.2]

theorem gathered_of_distinct (hdistinct : (fields.map output).Nodup) (h : field ∈ fields) :
    gathered fields field.output = field.fields := by
  induction fields with
  | nil => cases h
  | cons first rest ih =>
    rw [List.map_cons, List.nodup_cons] at hdistinct
    rcases List.mem_cons.mp h with rfl | h
    · rw [gathered_cons_eq rfl, gathered_of_absent hdistinct.1, List.append_nil]
    · have hne : first.output ≠ field.output := fun heq =>
        hdistinct.1 (List.mem_map.mpr ⟨field, h, heq.symm⟩)
      rw [gathered_cons_ne hne, ih hdistinct.2 h]

theorem siblings_inner (field : PlannedField) (name : String) (parent : List String) :
    siblings [field] (name :: parent) =
      if field.output = name then siblings field.fields parent else [] := by
  have hpaths : ∀ below ∈ occurrences field.fields,
      decide ((field.output :: below.1).dropLast = name :: parent) =
        (decide (field.output = name) && decide (below.1.dropLast = parent)) := by
    intro below hbelow
    simp only [List.dropLast_cons_of_ne_nil (path_eq hbelow).1, List.cons.injEq, Bool.decide_and]
  rw [siblings, occurrences_cons, occurrences, List.append_nil, List.filter_cons_of_neg (by simp),
    List.filter_map, List.map_map, siblings]
  refine (congrArg (List.map _) (List.filter_congr hpaths)).trans ?_
  by_cases hname : field.output = name
  · simp only [hname, decide_true, Bool.true_and, if_true]
    rfl
  · simp [hname]

/-- The second one: below a longer path is what is below its tail in all that is selected at its
head. With it what is below a path is found by recursion on the path, in the way in which merging
goes down. -/
theorem siblings_cons (fields : List PlannedField) (name : String) (parent : List String) :
    siblings fields (name :: parent) = siblings (gathered fields name) parent := by
  induction fields with
  | nil => rfl
  | cons field rest ih =>
    rw [← List.singleton_append, siblings_append, siblings_inner, ih, List.singleton_append]
    by_cases hname : field.output = name
    · rw [if_pos hname, gathered_cons_eq hname, siblings_append]
    · rw [if_neg hname, gathered_cons_ne hname, List.nil_append]

theorem find?_occurrences (fields : List PlannedField) (parent : List String) (name : String) :
    ((occurrences fields).find? (·.1 = parent ++ [name])).map (·.2) =
      (siblings fields parent).find? (·.output = name) := by
  have hpath : ∀ occurrence ∈ occurrences fields,
      decide (occurrence.1 = parent ++ [name]) =
        decide (decide (occurrence.1.dropLast = parent) = true ∧
          ((fun field => decide (field.output = name)) ∘ Prod.snd) occurrence = true) := by
    intro occurrence hmem
    rw [decide_eq_decide]
    simp only [decide_eq_true_iff, Function.comp_apply]
    constructor
    · intro heq
      have hconcat := (path_eq hmem).2
      rw [heq, List.dropLast_concat, List.append_cancel_left_eq, List.cons.injEq] at hconcat
      exact ⟨heq ▸ List.dropLast_concat, hconcat.1.symm⟩
    · rintro ⟨rfl, rfl⟩
      exact (path_eq hmem).2
  rw [siblings, List.find?_map, List.find?_filter]
  congr 1
  rw [← List.head?_filter, ← List.head?_filter, List.filter_congr hpath]

/-! ## One level -/

theorem gathered_append (fields others : List PlannedField) (name : String) :
    gathered (fields ++ others) name = gathered fields name ++ gathered others name := by
  rw [gathered, List.filter_append, List.flatMap_append, gathered, gathered]

/-- `insertField_ok` for entries of different output names, where the field that becomes one with
the added one is the one that `joinAt` changes. -/
theorem insertField_cases {merged : List PlannedField} (hdistinct : (fields.map output).Nodup)
    (h : insertField field fields = .ok merged) :
    (field.output ∉ fields.map output ∧ merged = fields ++ [field]) ∨
      (field.output ∈ fields.map output ∧ merged = joinAt field fields) := by
  rcases insertField_ok h with ⟨hne, rfl⟩ | ⟨before, first, after, rfl, -, hout, hname, hargs, -⟩
  · refine .inl ⟨fun hmem => ?_, rfl⟩
    obtain ⟨other, hother, heq⟩ := List.mem_map.mp hmem
    exact hne other hother heq
  · have hfirst : first ∈ before ++ first :: after := by simp
    refine .inr ⟨List.mem_map.mpr ⟨first, hfirst, hout⟩, ?_⟩
    rw [insertField_of_agrees hdistinct ⟨first, hfirst, hout, hname, hargs⟩] at h
    exact (Except.ok.inj h).symm

/-- Fields of a level, and what was put together of them: each entry is the first field of its
output name with all that is selected of the fields of that name, and the entries stand in the order
in which their names came up. -/
structure Gathers (fields level : List PlannedField) : Prop where
  /-- each name once -/
  outputs : level.map output = (fields.map output).eraseDups
  /-- the first field of the name -/
  first : ∀ entry ∈ level,
    (fields.find? (·.output = entry.output)).map head = some entry.head
  /-- what is selected of all fields of the name -/
  inner : ∀ entry ∈ level, entry.fields = gathered fields entry.output

namespace Gathers

variable {level : List PlannedField}

theorem eraseDups_concat (names : List String) (name : String) :
    (names ++ [name]).eraseDups =
      if name ∈ names then names.eraseDups else names.eraseDups ++ [name] := by
  rw [List.eraseDups_append, List.removeAll]
  by_cases hmem : name ∈ names
  · rw [List.filter_cons_of_neg (by simpa using hmem), if_pos hmem]
    exact List.append_nil _
  · rw [List.filter_cons_of_pos (by simpa using hmem), if_neg hmem]
    rfl

theorem mem_outputs_iff (h : Gathers fields level) :
    name ∈ level.map output ↔ name ∈ fields.map output := by
  rw [h.outputs, List.mem_eraseDups]

theorem first_append (h : Gathers fields level) (others : List PlannedField) :
    ∀ entry ∈ level,
      ((fields ++ others).find? (·.output = entry.output)).map head = some entry.head := by
  intro entry hentry
  obtain ⟨first, hfind, hhead⟩ := Option.map_eq_some_iff.mp (h.first entry hentry)
  rw [List.find?_append, hfind, Option.some_or, Option.map_some, hhead]

/-- The invariant `Gathers`, for a field with an output name that is new. -/
theorem concat_new (h : Gathers fields level) (hnew : field.output ∉ fields.map output) :
    Gathers (fields ++ [field]) (level ++ [field]) where
  outputs := by
    rw [List.map_append, List.map_append, List.map_singleton, eraseDups_concat, if_neg hnew,
      h.outputs]
  first entry hentry := by
    rcases List.mem_append.mp hentry with hentry | hentry
    · exact h.first_append [field] entry hentry
    · obtain rfl := List.mem_singleton.mp hentry
      have hnone : fields.find? (·.output = entry.output) = none := by
        rw [List.find?_eq_none]
        intro other hother heq
        exact hnew (List.mem_map.mpr ⟨other, hother, by simpa using heq⟩)
      simp [List.find?_append, hnone]
  inner entry hentry := by
    rw [gathered_append]
    rcases List.mem_append.mp hentry with hentry | hentry
    · have hne : field.output ≠ entry.output := fun heq =>
        hnew (h.mem_outputs_iff.mp (List.mem_map.mpr ⟨entry, hentry, heq.symm⟩))
      rw [gathered_cons_ne hne, h.inner entry hentry]
      exact (List.append_nil _).symm
    · obtain rfl := List.mem_singleton.mp hentry
      rw [gathered_of_absent hnew, gathered_cons_eq rfl]
      exact (List.append_nil _).symm

/-- The invariant `Gathers`, for a field with an output name that there is: it is not the first of
it, and what is selected of it comes behind what is gathered. -/
theorem concat_old (h : Gathers fields level) (hold : field.output ∈ fields.map output) :
    Gathers (fields ++ [field]) (joinAt field level) where
  outputs := by
    rw [map_output_joinAt, List.map_append, List.map_singleton, eraseDups_concat, if_pos hold,
      h.outputs]
  first entry hentry := by
    obtain ⟨other, hother, rfl⟩ := List.mem_map.mp hentry
    have hfirst := h.first_append [field] other hother
    split
    · exact hfirst
    · exact hfirst
  inner entry hentry := by
    obtain ⟨other, hother, rfl⟩ := List.mem_map.mp hentry
    rw [gathered_append]
    by_cases heq : other.output = field.output
    · rw [if_pos heq, output_join, ← h.inner other hother, gathered_cons_eq heq.symm]
      exact congrArg (other.fields ++ ·) (List.append_nil _).symm
    · rw [if_neg heq, ← h.inner other hother, gathered_cons_ne (Ne.symm heq)]
      exact (List.append_nil _).symm

end Gathers

theorem mergeLevel_concat (fields : List PlannedField) (field : PlannedField) :
    mergeLevel (fields ++ [field]) = mergeLevel fields >>= insertField field := by
  rw [mergeLevel, mergeLevelInto_append]
  congr 1
  funext merged
  rw [mergeLevelInto]
  cases insertField field merged <;> rfl

/-- The induction adds the fields one by one at the end, as `mergeLevel` does; the two cases of
`insertField_cases` are `concat_new` and `concat_old`. -/
theorem gathers_mergeLevel {level : List PlannedField} (h : mergeLevel fields = .ok level) :
    Gathers fields level := by
  induction fields using List.reverseRecOn generalizing level with
  | nil =>
    obtain rfl := Except.ok.inj h
    exact ⟨rfl, fun _ hentry => absurd hentry List.not_mem_nil,
      fun _ hentry => absurd hentry List.not_mem_nil⟩
  | append_singleton fields field ih =>
    rw [mergeLevel_concat] at h
    obtain ⟨before, hbefore, h⟩ := ok_of_bind h
    have hgathers := ih hbefore
    rcases insertField_cases (nodup_mergeLevel hbefore) h with ⟨hnew, rfl⟩ | ⟨hold, rfl⟩
    · exact hgathers.concat_new (mt hgathers.mem_outputs_iff.mpr hnew)
    · exact hgathers.concat_old (hgathers.mem_outputs_iff.mp hold)

/-! ## Which levels can be put together -/

/-- Any two fields of one output name are the same field with equal arguments. -/
def LevelAgrees (fields : List PlannedField) : Prop :=
  ∀ first ∈ fields, ∀ second ∈ fields, first.output = second.output → Agrees first second

theorem exists_insertField
    (h : ∀ entry ∈ fields, entry.output = field.output → Agrees entry field) :
    ∃ merged, insertField field fields = .ok merged := by
  induction fields with
  | nil => exact ⟨_, rfl⟩
  | cons first rest ih =>
    rw [List.forall_mem_cons] at h
    by_cases hfirst : first.output = field.output
    · rw [insertField_cons_eq hfirst, conflict?_eq_none.mpr (h.1 hfirst)]
      exact ⟨_, rfl⟩
    · obtain ⟨merged, hmerged⟩ := ih h.2
      rw [insertField_cons_ne hfirst, hmerged]
      exact ⟨_, rfl⟩

theorem Agrees.of_head {first second third : PlannedField} (hhead : first.head = second.head)
    (h : Agrees second third) : Agrees first third := by
  rw [← conflict?_eq_none] at h ⊢
  rw [conflict?_of_head hhead rfl, h]

theorem Gathers.exists_first {level : List PlannedField} (h : Gathers fields level)
    {entry : PlannedField} (hentry : entry ∈ level) :
    ∃ first ∈ fields, first.head = entry.head := by
  obtain ⟨first, hfind, hhead⟩ := Option.map_eq_some_iff.mp (h.first entry hentry)
  exact ⟨first, List.mem_of_find?_eq_some hfind, hhead⟩

/-- A level in which fields agree can be put together, since each field agrees with the entry of its
name. -/
theorem exists_mergeLevel (h : LevelAgrees fields) : ∃ level, mergeLevel fields = .ok level := by
  induction fields using List.reverseRecOn with
  | nil => exact ⟨[], rfl⟩
  | append_singleton fields field ih =>
    obtain ⟨level, hlevel⟩ := ih fun first hfirst second hsecond =>
      h first (List.mem_append_left _ hfirst) second (List.mem_append_left _ hsecond)
    have hentries : ∀ entry ∈ level, entry.output = field.output → Agrees entry field := by
      intro entry hentry houtput
      obtain ⟨first, hfirst, hhead⟩ := (gathers_mergeLevel hlevel).exists_first hentry
      refine .of_head hhead.symm (h first (List.mem_append_left _ hfirst) field ?_ ?_)
      · exact List.mem_append_right _ (List.mem_singleton_self _)
      · exact (output_of_head hhead).trans houtput
    obtain ⟨merged, hmerged⟩ := exists_insertField hentries
    refine ⟨merged, ?_⟩
    rw [mergeLevel_concat, hlevel]
    exact hmerged

/-- In no object among the arguments of a field does a name come twice. Only then are fields that
agree in an equivalence, as `Value.sameObject` compares objects by looking names up. -/
def KeyedArguments (field : PlannedField) : Prop := (Value.object field.arguments).keyed = true

instance (field : PlannedField) : Decidable (KeyedArguments field) :=
  inferInstanceAs (Decidable (_ = true))

theorem Agrees.refl (h : KeyedArguments field) : Agrees field field := by
  refine ⟨rfl, ?_⟩
  rw [← Value.same_object]
  exact Value.same_refl h

theorem Agrees.symm {first second : PlannedField} (hfirst : KeyedArguments first)
    (hsecond : KeyedArguments second) (h : Agrees first second) : Agrees second first := by
  refine ⟨h.1.symm, ?_⟩
  rw [← Value.same_object]
  exact Value.same_symm hfirst hsecond h.2

theorem exists_entry {level : List PlannedField} (hkeyed : ∀ field ∈ fields, KeyedArguments field)
    (h : mergeLevel fields = .ok level) :
    ∀ field ∈ fields, ∃ entry ∈ level, entry.output = field.output ∧ Agrees entry field := by
  induction fields using List.reverseRecOn generalizing level with
  | nil => exact fun _ hfield => absurd hfield List.not_mem_nil
  | append_singleton fields last ih =>
    rw [mergeLevel_concat] at h
    obtain ⟨before, hbefore, h⟩ := ok_of_bind h
    intro field hfield
    rcases List.mem_append.mp hfield with hfield' | hfield'
    · refine agrees_insertField h (ih (fun other hother => ?_) hbefore field hfield')
      exact hkeyed other (List.mem_append_left _ hother)
    · rw [List.mem_singleton.mp hfield'] at hfield ⊢
      exact entry_insertField h rfl (.refl (hkeyed last hfield))

/-- If a level can be put together, then its fields agree: each agrees with the entry of its output
name, and by `KeyedArguments` they agree with each other. -/
theorem levelAgrees_of_mergeLevel {level : List PlannedField}
    (hkeyed : ∀ field ∈ fields, KeyedArguments field) (h : mergeLevel fields = .ok level) :
    LevelAgrees fields := by
  intro first hfirst second hsecond houtput
  obtain ⟨entry, hentry, heq, hagrees⟩ := exists_entry hkeyed h first hfirst
  obtain ⟨entry', hentry', heq', hagrees'⟩ := exists_entry hkeyed h second hsecond
  have hsame : entry = entry' := List.inj_on_of_nodup_map (nodup_mergeLevel h) hentry hentry'
    (heq.trans (houtput.trans heq'.symm))
  obtain ⟨field, hfield, hhead⟩ := (gathers_mergeLevel h).exists_first hentry
  have hkeyed' : KeyedArguments entry := by
    have hargs := congrArg arguments hhead
    simp only [head] at hargs
    rw [KeyedArguments, ← hargs]
    exact hkeyed field hfield
  exact (hagrees.symm hkeyed' (hkeyed first hfirst)).trans (hsame ▸ hagrees')

/-! ## All levels -/

/-- `merge` commutes with `gathered`: what is merged below an output name is what is merged of all
that is selected of the fields of that name. -/
theorem merge_gathered {merged : List PlannedField} (h : merge fields = .ok merged)
    (name : String) : merge (gathered fields name) = .ok (gathered merged name) := by
  obtain ⟨level, hlevel, each⟩ := merge_ok h
  have hgathers := gathers_mergeLevel hlevel
  have houtputs : merged.map output = level.map output :=
    map_output_eq each (by rintro field _ ⟨below, -, rfl⟩; rfl)
  have hdistinct := (distinctOutputs_merge h).nodup
  by_cases hname : name ∈ merged.map output
  · obtain ⟨result, hresult, rfl⟩ := List.mem_map.mp hname
    obtain ⟨entry, hentry, below, hbelow, heq⟩ := exists_of_forall₂ each hresult
    have houtput : result.output = entry.output := by rw [heq]; rfl
    rw [gathered_of_distinct hdistinct hresult, houtput, ← hgathers.inner entry hentry, hbelow, heq]
  · rw [gathered_of_absent hname, gathered_of_absent, merge_nil]
    rwa [← hgathers.mem_outputs_iff, ← houtputs]

/-- Below every path is what one level is put together of. The induction is on the path, by
`siblings_cons` and `merge_gathered`. -/
theorem exists_siblings_level {merged : List PlannedField} (h : merge fields = .ok merged)
    (parent : List String) :
    ∃ level, mergeLevel (siblings fields parent) = .ok level ∧
      (siblings merged parent).map head = level.map head := by
  induction parent generalizing fields merged with
  | nil =>
    obtain ⟨level, hlevel, each⟩ := merge_ok h
    rw [siblings_root, siblings_root]
    refine ⟨level, hlevel, ?_⟩
    clear hlevel h
    induction each with
    | nil => rfl
    | cons hfirst _ ih =>
      obtain ⟨below, -, rfl⟩ := hfirst
      rw [List.map_cons, List.map_cons, ih]
      rfl
  | cons name parent ih =>
    rw [siblings_cons, siblings_cons]
    exact ih (merge_gathered h name)

/-- Every field that is merged is the first of its output name, apart from what is selected of
it. -/
theorem find?_of_merge {merged : List PlannedField} (h : merge fields = .ok merged)
    {result : PlannedField} (hresult : result ∈ merged) :
    (fields.find? (·.output = result.output)).map head = some result.head := by
  obtain ⟨level, hlevel, hheads⟩ := exists_siblings_level h []
  rw [siblings_root] at hlevel hheads
  have hhead := List.mem_map_of_mem (f := head) hresult
  rw [hheads] at hhead
  obtain ⟨entry, hentry, heq⟩ := List.mem_map.mp hhead
  have hfirst := (gathers_mergeLevel hlevel).first entry hentry
  rwa [output_of_head heq, heq] at hfirst

/-- Any two fields of one path are the same field with equal arguments. -/
def ConflictFree (fields : List PlannedField) : Prop :=
  ∀ first ∈ occurrences fields, ∀ second ∈ occurrences fields,
    first.1 = second.1 → Agrees first.2 second.2

instance (fields : List PlannedField) : Decidable (ConflictFree fields) :=
  inferInstanceAs (Decidable (∀ first ∈ occurrences fields, ∀ second ∈ occurrences fields, _))

/-- Fields of one path are fields of one output name below the rest of the path. -/
theorem conflictFree_iff :
    ConflictFree fields ↔ ∀ parent, LevelAgrees (siblings fields parent) := by
  constructor
  · intro h parent first hfirst second hsecond houtput
    rw [mem_siblings_iff] at hfirst hsecond
    exact h _ hfirst _ hsecond (by rw [houtput])
  · intro h first hfirst second hsecond hpath
    obtain ⟨path, field⟩ := first
    obtain ⟨path', field'⟩ := second
    obtain rfl : path = path' := hpath
    have heq := (path_eq hfirst).2
    have heq' := (path_eq hsecond).2
    simp only at heq heq'
    have houtput : field.output = field'.output := by
      rw [heq', List.dropLast_concat, List.append_cancel_left_eq, List.cons.injEq] at heq
      exact heq.1.symm
    refine h path.dropLast field ?_ field' ?_ houtput
    · rw [mem_siblings_iff, ← heq]
      exact hfirst
    · rw [mem_siblings_iff, ← heq']
      exact hsecond

/-- The induction is that of `merge`. Below an entry there are no conflicts either, since what is
selected there is `gathered` of fields of one path. -/
theorem exists_merge (h : ConflictFree fields) : ∃ merged, merge fields = .ok merged := by
  rw [conflictFree_iff] at h
  induction fields using merge.induct with
  | case1 fields rejection hlevel =>
    have hagrees := h []
    rw [siblings_root] at hagrees
    obtain ⟨level, hlevel'⟩ := exists_mergeLevel hagrees
    rw [hlevel] at hlevel'
    cases hlevel'
  | case2 fields level hlevel ih =>
    have hinner : ∀ entry ∈ level, ∃ below, merge entry.fields = .ok below := by
      intro entry hentry
      refine ih entry hentry fun parent => ?_
      rw [(gathers_mergeLevel hlevel).inner entry hentry, ← siblings_cons]
      exact h _
    rw [merge_eq, hlevel]
    refine exists_mapM fun entry hentry => ?_
    obtain ⟨below, hbelow⟩ := hinner entry hentry
    rw [hbelow]
    exact ⟨_, rfl⟩

/-- The other direction, level by level, where `exists_siblings_level` gives a level for every
path. -/
theorem conflictFree_of_merge {merged : List PlannedField}
    (hkeyed : ∀ occurrence ∈ occurrences fields, KeyedArguments occurrence.2)
    (h : merge fields = .ok merged) : ConflictFree fields := by
  rw [conflictFree_iff]
  intro parent
  obtain ⟨level, hlevel, -⟩ := exists_siblings_level h parent
  exact levelAgrees_of_mergeLevel (fun field hfield => hkeyed _ (mem_siblings_iff.mp hfield)) hlevel

/-- What fields become when they are merged. -/
structure Normalizes (fields merged : List PlannedField) : Prop where
  /-- on every level, output names are different -/
  distinct : DistinctOutputs merged
  /-- no path is lost, and none is new -/
  paths : ∀ path, path ∈ (occurrences merged).map (·.1) ↔ path ∈ (occurrences fields).map (·.1)
  /-- the field of a path is the first that had it, apart from what is selected of it -/
  first : ∀ occurrence ∈ occurrences merged,
    ((occurrences fields).find? (·.1 = occurrence.1)).map (·.2.head) = some occurrence.2.head
  /-- fields below one path stand in the order in which their output names came up -/
  order : ∀ parent,
    (siblings merged parent).map output = ((siblings fields parent).map output).eraseDups

theorem normalizes_merge {merged : List PlannedField} (h : merge fields = .ok merged) :
    Normalizes fields merged := by
  have horder : ∀ parent,
      (siblings merged parent).map output = ((siblings fields parent).map output).eraseDups := by
    intro parent
    obtain ⟨level, hlevel, hheads⟩ := exists_siblings_level h parent
    have houtputs := congrArg (List.map output) hheads
    rw [List.map_map, List.map_map] at houtputs
    exact houtputs.trans (gathers_mergeLevel hlevel).outputs
  refine ⟨distinctOutputs_merge h, fun path => ?_, fun occurrence hmem => ?_, horder⟩
  · rw [mem_paths_iff, mem_paths_iff]
    simp only [horder, List.mem_eraseDups]
  · have hpath := (path_eq hmem).2
    obtain ⟨level, hlevel, hheads⟩ := exists_siblings_level h occurrence.1.dropLast
    have hsibling : occurrence.2 ∈ siblings merged occurrence.1.dropLast := by
      rw [mem_siblings_iff, ← hpath]
      exact hmem
    have hhead := List.mem_map_of_mem (f := head) hsibling
    rw [hheads] at hhead
    obtain ⟨entry, hentry, hhead⟩ := List.mem_map.mp hhead
    have hfirst := (gathers_mergeLevel hlevel).first entry hentry
    rw [hhead, output_of_head hhead, ← find?_occurrences, ← hpath, Option.map_map] at hfirst
    exact hfirst

/-- Merging ends, and fields can be merged if and only if no two with one path conflict. Then every
path that there was is that of one field, the first that had it, and fields below one path stand in
the order in which they came up. Parts can be merged before, without a difference to the result or
to why there is none, and what is merged is not changed by merging it again. -/
theorem merge_normalizes (fields : List PlannedField)
    (hkeyed : ∀ occurrence ∈ occurrences fields, KeyedArguments occurrence.2) :
    ((∃ merged, merge fields = .ok merged) ↔ ConflictFree fields) ∧
      (∀ merged, merge fields = .ok merged →
        Normalizes fields merged ∧ merge merged = .ok merged) ∧
      ∀ nested, MergedBelow fields nested → merge nested = merge fields := by
  refine ⟨⟨?_, exists_merge⟩, fun merged h => ⟨normalizes_merge h, merge_merge h⟩,
    fun nested h => h.merge_eq⟩
  rintro ⟨merged, h⟩
  exact conflictFree_of_merge hkeyed h

end PlannedField

namespace Concerts

/-- A concert that is selected twice, the second time with its arguments the other way round. -/
def twice : List PlannedField :=
  [⟨some "c", "concert", .named "Concert" true, [("id", .string "7"), ("year", .null)],
      [⟨none, "venue", .named "Venue" true, [],
        [⟨none, "name", .named "String" false, [], [], ⟨3, 9⟩⟩], ⟨3, 1⟩⟩], ⟨2, 1⟩⟩,
    ⟨some "c", "concert", .named "Concert" true, [("year", .null), ("id", .string "7")],
      [⟨none, "title", .named "String" false, [], [], ⟨6, 1⟩⟩,
        ⟨none, "venue", .named "Venue" true, [],
          [⟨some "hall", "name", .named "String" false, [], [], ⟨7, 9⟩⟩], ⟨7, 1⟩⟩], ⟨5, 1⟩⟩]

def once : List PlannedField :=
  [⟨some "c", "concert", .named "Concert" true, [("id", .string "7"), ("year", .null)],
      [⟨none, "venue", .named "Venue" true, [],
        [⟨none, "name", .named "String" false, [], [], ⟨3, 9⟩⟩,
          ⟨some "hall", "name", .named "String" false, [], [], ⟨7, 9⟩⟩], ⟨3, 1⟩⟩,
        ⟨none, "title", .named "String" false, [], [], ⟨6, 1⟩⟩], ⟨2, 1⟩⟩]

open PlannedField in
/-- The two become one, and so do their venues. -/
theorem twice_normalizes :
    (∀ occurrence ∈ occurrences twice, KeyedArguments occurrence.2) ∧ ConflictFree twice ∧
      merge twice = .ok once ∧ Normalizes twice once := by
  have hkeyed : ∀ occurrence ∈ occurrences twice, KeyedArguments occurrence.2 := by
    decide +kernel
  have honce : merge twice = .ok once := by
    with_unfolding_all rfl
  obtain ⟨haccepts, hmerged, -⟩ := merge_normalizes twice hkeyed
  exact ⟨hkeyed, haccepts.mp ⟨once, honce⟩, honce, (hmerged once honce).1⟩

end Concerts

end FeedGraph
