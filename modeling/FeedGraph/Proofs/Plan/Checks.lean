import FeedGraph.Plan.OfDocument
import FeedGraph.Proofs.Plan.Faults
import FeedGraph.Proofs.Plan.Inlining

/-!
# Checks: which fields are checked while an operation is planned

A field is counted before it is checked, and the count is gone when something is rejected. Here it
is kept: `Plan.ofDocumentRecorded` plans a document and lists the places of the fields that are
checked on the way, whether the document is accepted in the end or not. The list is all that it adds
(`Plan.ofDocumentRecorded_eq`).

That the list is right, and no longer than an operation may be, is said by `Checker.Follows` of
every part that checks selections: it appends the places of the fields as they stand when fragments
are written out, one after the other, up to where something is rejected. A field that would be one
too many is not appended, so that the list is full where it stops. This is preserved by one part
behind another, and `Plan.follows_ofDocument` has it for whole documents.
-/

namespace FeedGraph

namespace Selection

mutual

/-- The places of the fields of a selection, each before those that are selected of it; fragments
that it uses are not entered. -/
def places : Selection → List Position
  | .field _ _ _ selections place => place :: placesAll selections
  | .spread _ _ => []
  | .inline selections _ => placesAll selections

/-- The places of the fields of selections, one after the other. -/
def placesAll : List Selection → List Position
  | [] => []
  | selection :: rest => selection.places ++ placesAll rest

end

theorem placesAll_append (selections others : List Selection) :
    placesAll (selections ++ others) = placesAll selections ++ placesAll others := by
  induction selections with
  | nil => simp [placesAll]
  | cons selection rest ih =>
    rw [List.cons_append, placesAll, placesAll, ih, List.append_assoc]

/-- A single field is followed by the fields that are selected of it. -/
theorem placesAll_field (alias? : Option String) (name : String) (arguments : List Argument)
    (selections : List Selection) (place : Position) :
    placesAll [.field alias? name arguments selections place] = place :: placesAll selections := by
  rw [placesAll, places, placesAll, List.append_nil]

end Selection

/-- Writing out goes selection by selection, so that the written-out form of a list is that of its
parts, one behind the other. -/
theorem Inlined.of_append {fragments : List Fragment} {selections others written : List Selection}
    (h : Inlined fragments (selections ++ others) written) :
    ∃ first second, Inlined fragments selections first ∧ Inlined fragments others second ∧
      written = first ++ second := by
  induction selections generalizing written with
  | nil => exact ⟨[], written, .nil, h, rfl⟩
  | cons selection rest ih =>
    cases h with
    | field hinner hrest =>
      obtain ⟨first, second, hfirst, hsecond, rfl⟩ := ih hrest
      exact ⟨_, second, .field hinner hfirst, hsecond, rfl⟩
    | spread hfragment hbody hrest =>
      obtain ⟨first, second, hfirst, hsecond, rfl⟩ := ih hrest
      exact ⟨_, second, .spread hfragment hbody hfirst, hsecond, (List.append_assoc _ _ _).symm⟩

/-- A field is written out to one field. -/
theorem Inlined.of_field {fragments : List Fragment} {alias? : Option String} {name : String}
    {arguments : List Argument} {selections written : List Selection} {place : Position}
    (h : Inlined fragments [.field alias? name arguments selections place] written) :
    ∃ inner, Inlined fragments selections inner ∧
      written = [.field alias? name arguments inner place] := by
  cases h with
  | field hinner hrest =>
    cases hrest
    exact ⟨_, hinner, rfl⟩

/-- The use of a fragment is written out to what the fragment selects is written out to. -/
theorem Inlined.of_spread {fragments : List Fragment} {name : String} {place : Position}
    {fragment : Fragment} {written : List Selection}
    (hfragment : fragments.find? (·.name = name) = some fragment)
    (h : Inlined fragments [.spread name place] written) :
    Inlined fragments fragment.selections written := by
  cases h with
  | spread hfragment' hbody hrest =>
    obtain rfl := Option.some.inj (hfragment.symm.trans hfragment')
    cases hrest
    rwa [List.append_nil]

namespace Checker

/-- Something that lists the places of the fields it checks, also when it is rejected. -/
abbrev Checking (α : Type) : Type := ExceptT Rejection (StateM (List Position)) α

/-- `Checker.countField` with a record: a field that is one too many is not checked. -/
def checkField (place : Position) : Checking Unit := fun checked =>
  if fieldLimit < checked.length + 1 then (.error (.tooManyFields place), checked)
  else (.ok (), checked ++ [place])

/-- `Checker.selected` with a record, given how what is selected of an object is collected. -/
def selectedRecorded (name : String) (place : Position) (empty : Bool) (definition : TypeDef)
    (type : String) (collecting : Checking (List PlannedField)) : Checking (List PlannedField) :=
  match definition.kind with
  | .scalar | .enumeration _ => if empty then pure [] else throw (.selectionOnLeaf name place)
  | .object _ =>
    if empty then throw (.missingSelection name type place)
    else do
      let collected ← collecting
      PlannedField.merge collected
  | _ => throw (.unselectableType type place)

mutual

/-- `Checker.collect` with a record. It does the same steps in the same order, and only counts by
another means. -/
def collectRecorded (checker : Checker)
    (spread : TypeDef → Nat → String → Position → Checking (List PlannedField))
    (container : TypeDef) (depth : Nat) : Selection → Checking (List PlannedField)
  | .field alias? name arguments selections place => do
    checkField place
    if checker.depthLimit < depth then throw (.tooDeep place)
    else if name = PlannedField.typename then
      return [← typenameField alias? arguments selections place]
    else
      match checker.schema.field? container.name name with
      | none => throw (.unknownField name container.name place)
      | some definition =>
        match checker.schema.type? definition.type.underlying with
        | none => throw (.unselectableType definition.type.underlying place)
        | some typeDef =>
          let fields ← selectedRecorded name place selections.isEmpty typeDef
            definition.type.underlying
            (collectAllRecorded checker spread typeDef (depth + 1) selections)
          let values ← Coercion.coerceAll checker.schema checker.bindings name place
            definition.arguments arguments
          return [⟨alias?, name, definition.type, values, fields, place⟩]
  | .spread fragment place => spread container depth fragment place
  | .inline _ place => throw (.inlineFragment place)

/-- `Checker.collectAll` with a record. -/
def collectAllRecorded (checker : Checker)
    (spread : TypeDef → Nat → String → Position → Checking (List PlannedField))
    (container : TypeDef) (depth : Nat) : List Selection → Checking (List PlannedField)
  | [] => pure []
  | selection :: rest => do
    let fields ← collectRecorded checker spread container depth selection
    let others ← collectAllRecorded checker spread container depth rest
    return fields ++ others

end

/-- `Checker.expand` with a record. -/
def expandRecorded (checker : Checker) : Nat → List String → TypeDef → Nat → String → Position →
    Checking (List PlannedField)
  | steps, path, container, depth, name, place =>
    if path.contains name then throw (.fragmentCycle name place)
    else
      match checker.fragments.find? (·.name = name) with
      | none => throw (.fragmentNotFound name place)
      | some fragment =>
        if fragment.on ≠ container.name then
          throw (.fragmentMismatch name container.name fragment.on place)
        else
          match steps with
          | 0 => throw (.fragmentCycle name place)
          | steps + 1 =>
            collectAllRecorded checker (checker.expandRecorded steps (path ++ [name])) container
              depth fragment.selections

/-- `Checker.select` with a record. -/
def selectRecorded (checker : Checker) (container : TypeDef) (selections : List Selection) :
    Checking (List PlannedField) := do
  let spread := checker.expandRecorded checker.fragments.length []
  let collected ← collectAllRecorded checker spread container 1 selections
  PlannedField.merge collected

/-! ## What the record adds -/

/-- A step, and what comes behind it with the record that the step leaves. The record is passed on
also when the step is rejected, which is what the count of `Counting` is not. -/
theorem run_bind_checking {α β : Type} (checking : Checking α) (next : α → Checking β)
    (checked : List Position) :
    (checking >>= next).run checked =
      ExceptT.bindCont next (checking.run checked).1 (checking.run checked).2 :=
  rfl

/-- A computation with a record comes to what the one that counts comes to, and where that has a
result, the count is that of the record. Each function of this module `Records` the one that it is a
copy of, which ties the record to the program. -/
def Records {α : Type} (counting : Counting α) (checking : Checking α) : Prop :=
  ∀ checked : List Position, counting checked.length =
    (checking.run checked).1.map (·, (checking.run checked).2.length)

namespace Records

variable {α β : Type}

theorem pure (a : α) : Records (Pure.pure a) (Pure.pure a) := fun _ => rfl

theorem throw (rejection : Rejection) :
    Records (throwThe Rejection rejection : Counting α) (throwThe Rejection rejection) :=
  fun _ => rfl

theorem lift (x : Except Rejection α) : Records (liftM x) (liftM x) := by
  intro checked
  cases x <;> rfl

theorem bind {counting : Counting α} {checking : Checking α} {f : α → Counting β}
    {g : α → Checking β} (h : Records counting checking) (hnext : ∀ a, Records (f a) (g a)) :
    Records (counting >>= f) (checking >>= g) := by
  intro checked
  have hstart := h checked
  rcases hrun : checking.run checked with ⟨result, after⟩
  rw [hrun] at hstart
  rw [bind_counting, hstart, run_bind_checking, hrun]
  cases result with
  | error rejection => rfl
  | ok a => exact hnext a after

/-- From an empty record they come to the same. -/
theorem from_start {counting : Counting α} {checking : Checking α}
    (h : Records counting checking) : (checking.run []).1 = (counting 0).map (·.1) := by
  have hstart := h []
  rw [List.length_nil] at hstart
  rw [hstart]
  cases (checking.run []).1 <;> rfl

theorem count (place : Position) : Records (countField place) (checkField place) := by
  intro checked
  simp only [countField, checkField, ExceptT.run]
  by_cases h : fieldLimit < checked.length + 1
  · rw [if_pos h, if_pos h]
    rfl
  · rw [if_neg h, if_neg h]
    simp [Except.map]

end Records

variable {checker : Checker} {spread : Spreader}
  {spread' : TypeDef → Nat → String → Position → Checking (List PlannedField)}

theorem records_selected {name type : String} {place : Position} {depth : Nat}
    {selections : List Selection} {definition : TypeDef}
    {collecting : Checking (List PlannedField)}
    (h : Records (collectAll checker spread definition (depth + 1) selections) collecting) :
    Records (selected checker spread name place depth selections definition type)
      (selectedRecorded name place selections.isEmpty definition type collecting) := by
  rw [selected, selectedRecorded]
  cases definition.kind with
  | object fields =>
    cases selections.isEmpty
    · exact h.bind fun _ => .lift _
    · exact .throw _
  | scalar | enumeration values =>
    cases selections.isEmpty
    · exact .throw _
    · exact .pure _
  | _ => exact .throw _

mutual

theorem records_collect
    (hspread : ∀ container depth name place,
      Records (spread container depth name place) (spread' container depth name place))
    (container : TypeDef) (depth : Nat) (selection : Selection) :
    Records (collect checker spread container depth selection)
      (collectRecorded checker spread' container depth selection) := by
  match selection with
  | .spread fragment place =>
    rw [collect, collectRecorded]
    exact hspread container depth fragment place
  | .inline _ place =>
    rw [collect, collectRecorded]
    exact .throw _
  | .field alias? name arguments selections place =>
    rw [collect_field, collectRecorded]
    refine (Records.count place).bind fun _ => ?_
    split
    · exact .throw _
    · split
      · exact (Records.lift _).bind fun _ => .pure _
      · cases checker.schema.field? container.name name with
        | none => exact .throw _
        | some definition =>
          cases ht : checker.schema.type? definition.type.underlying with
          | none =>
            simp only [ht]
            exact .throw _
          | some typeDef =>
            simp only [ht]
            refine (records_selected ?_).bind fun fields => (Records.lift _).bind fun _ => .pure _
            exact records_collectAll hspread typeDef (depth + 1) selections

theorem records_collectAll
    (hspread : ∀ container depth name place,
      Records (spread container depth name place) (spread' container depth name place))
    (container : TypeDef) (depth : Nat) (selections : List Selection) :
    Records (collectAll checker spread container depth selections)
      (collectAllRecorded checker spread' container depth selections) := by
  match selections with
  | [] =>
    rw [collectAll, collectAllRecorded]
    exact .pure _
  | selection :: rest =>
    rw [collectAll, collectAllRecorded]
    refine (records_collect hspread container depth selection).bind fun fields => ?_
    exact (records_collectAll hspread container depth rest).bind fun others => .pure _

end

theorem records_expand (steps : Nat) (path : List String) (container : TypeDef) (depth : Nat)
    (name : String) (place : Position) :
    Records (checker.expand steps path container depth name place)
      (checker.expandRecorded steps path container depth name place) := by
  induction steps generalizing path container depth name place with
  | zero =>
    rw [expand, expandRecorded]
    split
    · exact .throw _
    · cases checker.fragments.find? (·.name = name) with
      | none => exact .throw _
      | some fragment =>
        dsimp only
        split <;> exact .throw _
  | succ steps ih =>
    rw [expand, expandRecorded]
    split
    · exact .throw _
    · cases checker.fragments.find? (·.name = name) with
      | none => exact .throw _
      | some fragment =>
        dsimp only
        split
        · exact .throw _
        · exact records_collectAll (ih (path ++ [name])) container depth fragment.selections

theorem records_select (container : TypeDef) (selections : List Selection) :
    Records (checker.select container selections)
      (checker.selectRecorded container selections) :=
  (records_collectAll (records_expand checker.fragments.length []) container 1 selections).bind
    fun _ => .lift _

/-! ## What is in the record -/

/-- The places that are appended to a record while selections are checked, with what comes of that.
The clauses about the written-out form are about all such forms, and say nothing if there is
none. -/
structure Appends {α : Type} (fragments : List Fragment) (selections : List Selection)
    (checked more : List Position) (outcome : Except Rejection α) : Prop where
  /-- there are no more of them than an operation may select -/
  bounded : (checked ++ more).length ≤ fieldLimit
  /-- there are just as many if one more was met -/
  full : ∀ place, outcome = .error (.tooManyFields place) →
    (checked ++ more).length = fieldLimit
  /-- they are those of the first fields of the selections when fragments are written out -/
  first : ∀ written, Inlined fragments selections written →
    more <+: Selection.placesAll written
  /-- they are those of all fields if nothing is rejected -/
  all : ∀ written a, Inlined fragments selections written → outcome = .ok a →
    more = Selection.placesAll written

/-- Checking selections appends the places of their fields to the record, whatever is in it, as long
as that is no more than an operation may select. It is the specification of one part of the
computation, to be put together with that of others by `Follows.bind`. -/
def Follows {α : Type} (fragments : List Fragment) (selections : List Selection)
    (checking : Checking α) : Prop :=
  ∀ checked : List Position, checked.length ≤ fieldLimit → ∃ more,
    (checking.run checked).2 = checked ++ more ∧
      Appends fragments selections checked more (checking.run checked).1

namespace Follows

variable {α β : Type} {fragments : List Fragment} {selections others : List Selection}
  {checking : Checking α}

/-- What is found out without checking a field: if it is not rejected, then there was no field. This
holds of all that is refused before a field is counted, and of what is empty. -/
theorem lift {x : Except Rejection α} (hx : ∀ place, x ≠ .error (.tooManyFields place))
    (hnone : ∀ a, x = .ok a → selections = []) :
    Follows fragments selections (liftM x : Checking α) := by
  intro checked hchecked
  have hrun : (liftM x : Checking α).run checked = (x, checked) := by cases x <;> rfl
  rw [hrun]
  refine ⟨[], (List.append_nil _).symm, ?_, fun place h => absurd h (hx place),
    fun _ _ => List.nil_prefix, fun written a hwritten hok => ?_⟩
  · rwa [List.append_nil]
  · obtain rfl := hnone a hok
    cases hwritten
    rfl

theorem throw {rejection : Rejection} (h : ∀ place, rejection ≠ .tooManyFields place) :
    Follows fragments selections (throwThe Rejection rejection : Checking α) :=
  lift (x := .error rejection) (fun place hx => h place (Except.error.inj hx)) fun _ hok => by
    cases hok

theorem pure (a : α) : Follows fragments [] (Pure.pure a : Checking α) :=
  lift (x := .ok a) (fun _ hx => by cases hx) fun _ _ => rfl

/-- Selections behind others. Where the first are rejected, the fields that were checked are the
first of both. -/
theorem bind {next : α → Checking β} (h : Follows fragments selections checking)
    (hnext : ∀ a, Follows fragments others (next a)) :
    Follows fragments (selections ++ others) (checking >>= next) := by
  intro checked hchecked
  obtain ⟨more, hmore, happends⟩ := h checked hchecked
  rw [run_bind_checking, hmore]
  cases hresult : (checking.run checked).1 with
  | error rejection =>
    rw [hresult] at happends
    refine ⟨more, rfl, happends.bounded, fun place h => ?_, fun written hwritten => ?_,
      fun _ _ _ hok => by cases hok⟩
    · exact happends.full place (congrArg Except.error (Except.error.inj h))
    · obtain ⟨first, second, hfirst, -, rfl⟩ := hwritten.of_append
      rw [Selection.placesAll_append]
      exact (happends.first first hfirst).trans (List.prefix_append _ _)
  | ok a =>
    rw [hresult] at happends
    obtain ⟨more', hmore', happends'⟩ := hnext a (checked ++ more) happends.bounded
    refine ⟨more ++ more', ?_, ?_, ?_, fun written hwritten => ?_, fun written b hwritten hok => ?_⟩
    · rw [← List.append_assoc]
      exact hmore'
    · rw [← List.append_assoc]
      exact happends'.bounded
    · rw [← List.append_assoc]
      exact happends'.full
    · obtain ⟨first, second, hfirst, hsecond, rfl⟩ := hwritten.of_append
      rw [Selection.placesAll_append, happends.all first a hfirst rfl]
      exact (List.prefix_append_right_inj _).mpr (happends'.first second hsecond)
    · obtain ⟨first, second, hfirst, hsecond, rfl⟩ := hwritten.of_append
      rw [Selection.placesAll_append, happends.all first a hfirst rfl,
        happends'.all second b hsecond hok]

/-- A step behind that checks no field. -/
theorem andThen {next : α → Checking β} (h : Follows fragments selections checking)
    (hnext : ∀ a, Follows fragments [] (next a)) :
    Follows fragments selections (checking >>= next) := by
  have hboth := h.bind hnext
  rwa [List.append_nil] at hboth

/-- The use of a fragment: its written-out form is that of what the fragment selects, so that the
same places are appended for both. -/
theorem fragment {name : String} {place : Position} {fragment : Fragment}
    (hfragment : fragments.find? (·.name = name) = some fragment)
    (h : Follows fragments fragment.selections checking) :
    Follows fragments [.spread name place] checking := by
  intro checked hchecked
  obtain ⟨more, hmore, happends⟩ := h checked hchecked
  exact ⟨more, hmore, happends.bounded, happends.full,
    fun written hwritten => happends.first written (hwritten.of_spread hfragment),
    fun written a hwritten => happends.all written a (hwritten.of_spread hfragment)⟩

/-- A field that may still be checked is appended, and then what is selected of it. One that may
not leaves the record, which is full. -/
theorem field {alias? : Option String} {name : String} {arguments : List Argument}
    {place : Position} (h : Follows fragments selections checking) :
    Follows fragments [.field alias? name arguments selections place]
      (checkField place >>= fun _ => checking) := by
  intro checked hchecked
  rw [run_bind_checking]
  by_cases hfull : fieldLimit < checked.length + 1
  · have hrun : (checkField place).run checked = (.error (.tooManyFields place), checked) :=
      if_pos hfull
    rw [hrun]
    refine ⟨[], (List.append_nil _).symm, ?_, fun _ _ => ?_, fun _ _ => List.nil_prefix,
      fun _ _ _ hok => by cases hok⟩
    · rwa [List.append_nil]
    · rw [List.append_nil]
      omega
  · have hrun : (checkField place).run checked = (.ok (), checked ++ [place]) := if_neg hfull
    rw [hrun]
    have hroom : (checked ++ [place]).length ≤ fieldLimit := by
      rw [List.length_append, List.length_singleton]
      omega
    obtain ⟨more, hmore, happends⟩ := h (checked ++ [place]) hroom
    have hcons : checked ++ [place] ++ more = checked ++ (place :: more) := by
      rw [List.append_assoc, List.singleton_append]
    rw [hcons] at hmore
    refine ⟨place :: more, hmore, hcons ▸ happends.bounded, hcons ▸ happends.full,
      fun written hwritten => ?_, fun written a hwritten hok => ?_⟩
    · obtain ⟨inner, hinner, rfl⟩ := hwritten.of_field
      rw [Selection.placesAll_field]
      exact (List.prefix_cons_inj place).mpr (happends.first inner hinner)
    · obtain ⟨inner, hinner, rfl⟩ := hwritten.of_field
      rw [Selection.placesAll_field, happends.all inner a hinner hok]

end Follows

theorem follows_merge {fragments : List Fragment} (collected : List PlannedField) :
    Follows fragments [] (liftM (PlannedField.merge collected) : Checking (List PlannedField)) :=
  .lift (fun _ h => (PlannedField.faults_merge collected _ h).elim) fun _ _ => rfl

theorem follows_coerceAll {fragments : List Fragment} {field : String} {place : Position}
    {definitions : List InputDef} {arguments : List Argument} :
    Follows fragments [] (liftM (Coercion.coerceAll checker.schema checker.bindings field place
      definitions arguments) : Checking (Members Value)) :=
  .lift (fun _ h => (Coercion.aboutArguments_coerceAll _ _ _ _ _ h).elim) fun _ _ => rfl

theorem follows_typenameField {fragments : List Fragment} {alias? : Option String}
    {arguments : List Argument} {selections : List Selection} {place : Position} :
    Follows fragments selections
      (liftM (typenameField alias? arguments selections place) : Checking PlannedField) := by
  refine .lift (fun _ h => ?_) fun _ hok => (ok_of_typename hok).2.1
  rw [typenameField] at h
  split at h
  · cases h
  · split at h <;> cases h

theorem follows_selected {fragments : List Fragment} {name type : String} {place : Position}
    {selections : List Selection} {definition : TypeDef}
    {collecting : Checking (List PlannedField)}
    (h : Follows fragments selections collecting) :
    Follows fragments selections
      (selectedRecorded name place selections.isEmpty definition type collecting) := by
  rw [selectedRecorded]
  cases definition.kind with
  | object fields =>
    cases selections with
    | nil => exact .throw fun _ => nofun
    | cons selection rest => exact h.andThen follows_merge
  | scalar | enumeration values =>
    cases selections with
    | nil => exact .pure _
    | cons selection rest => exact .throw fun _ => nofun
  | _ => exact .throw fun _ => nofun

mutual

theorem follows_collect
    (hspread : ∀ container depth name place,
      Follows checker.fragments [.spread name place] (spread' container depth name place))
    (container : TypeDef) (depth : Nat) (selection : Selection) :
    Follows checker.fragments [selection]
      (collectRecorded checker spread' container depth selection) := by
  match selection with
  | .spread fragment place =>
    rw [collectRecorded]
    exact hspread container depth fragment place
  | .inline _ place =>
    rw [collectRecorded]
    exact .throw fun _ => nofun
  | .field alias? name arguments selections place =>
    rw [collectRecorded]
    refine .field ?_
    split
    · exact .throw fun _ => nofun
    · split
      · exact follows_typenameField.andThen fun _ => .pure _
      · cases checker.schema.field? container.name name with
        | none => exact .throw fun _ => nofun
        | some definition =>
          cases ht : checker.schema.type? definition.type.underlying with
          | none =>
            simp only [ht]
            exact .throw fun _ => nofun
          | some typeDef =>
            simp only [ht]
            refine (follows_selected ?_).andThen fun fields =>
              follows_coerceAll.andThen fun _ => .pure _
            exact follows_collectAll hspread typeDef (depth + 1) selections

theorem follows_collectAll
    (hspread : ∀ container depth name place,
      Follows checker.fragments [.spread name place] (spread' container depth name place))
    (container : TypeDef) (depth : Nat) (selections : List Selection) :
    Follows checker.fragments selections
      (collectAllRecorded checker spread' container depth selections) := by
  match selections with
  | [] =>
    rw [collectAllRecorded]
    exact .pure _
  | selection :: rest =>
    rw [collectAllRecorded]
    refine (follows_collect hspread container depth selection).bind fun fields => ?_
    exact (follows_collectAll hspread container depth rest).andThen fun others => .pure _

end

theorem follows_expand (steps : Nat) (path : List String) (container : TypeDef) (depth : Nat)
    (name : String) (place : Position) :
    Follows checker.fragments [.spread name place]
      (checker.expandRecorded steps path container depth name place) := by
  induction steps generalizing path container depth name place with
  | zero =>
    rw [expandRecorded]
    split
    · exact .throw fun _ => nofun
    · cases checker.fragments.find? (·.name = name) with
      | none => exact .throw fun _ => nofun
      | some fragment =>
        dsimp only
        split <;> exact .throw fun _ => nofun
  | succ steps ih =>
    rw [expandRecorded]
    split
    · exact .throw fun _ => nofun
    · cases hfragment : checker.fragments.find? (·.name = name) with
      | none => exact .throw fun _ => nofun
      | some fragment =>
        dsimp only
        split
        · exact .throw fun _ => nofun
        · refine .fragment hfragment ?_
          exact follows_collectAll (ih (path ++ [name])) container depth fragment.selections

theorem follows_select (container : TypeDef) (selections : List Selection) :
    Follows checker.fragments selections (checker.selectRecorded container selections) :=
  (follows_collectAll (follows_expand checker.fragments.length []) container 1 selections).andThen
    follows_merge

end Checker

namespace Plan

open Checker

/-- `Plan.ofOperation` with a record. -/
def ofOperationRecorded (schema : Schema) (fragments : List Fragment) (supplied : Members Json)
    (depthLimit : Nat) (name? : Option String) (operation : Operation) : Checking Plan := do
  let root ← rootOf schema operation
  let bindings ← operation.bindings supplied
  let checker : Checker := ⟨schema, bindings, fragments, depthLimit⟩
  let fields ← checker.selectRecorded root operation.selections
  return ⟨name?, operation.kind, fields⟩

/-- `Plan.ofDocument` with a record. -/
def ofDocumentRecorded (schema : Schema) (document : Document) (operationName? : Option String)
    (supplied : Members Json) (depthLimit : Nat) : Except Rejection Plan × List Position :=
  let planning : Checking Plan := do
    let (name?, operation) ← document.choose operationName?
    ofOperationRecorded schema document.fragments supplied depthLimit name? operation
  planning.run []

/-- Without the record it is the same, by `Records.from_start`. -/
theorem ofDocumentRecorded_eq (schema : Schema) (document : Document)
    (operationName? : Option String) (supplied : Members Json) (depthLimit : Nat) :
    (ofDocumentRecorded schema document operationName? supplied depthLimit).1 =
      ofDocument schema document operationName? supplied depthLimit := by
  rw [ofDocumentRecorded, ofDocument]
  cases document.choose operationName? with
  | error rejection => rfl
  | ok chosen =>
    obtain ⟨name?, operation⟩ := chosen
    change ((ofOperationRecorded schema document.fragments supplied depthLimit name?
      operation).run _).1 = ofOperation schema document.fragments supplied depthLimit name? operation
    rw [ofOperationRecorded, ofOperation]
    cases rootOf schema operation with
    | error rejection => rfl
    | ok root =>
      cases operation.bindings supplied with
      | error rejection => rfl
      | ok bindings =>
        let checker : Checker := ⟨schema, bindings, document.fragments, depthLimit⟩
        let planOf (fields : List PlannedField) : Plan := ⟨name?, operation.kind, fields⟩
        have hselect : Records (checker.select root operation.selections)
            (checker.selectRecorded root operation.selections) :=
          records_select root operation.selections
        have hplan := (hselect.bind fun fields => .pure (planOf fields)).from_start
        rw [bind_counting] at hplan
        refine Eq.trans hplan ?_
        change _ = (checker.select root operation.selections 0).bind fun result =>
          .ok (planOf result.1)
        cases checker.select root operation.selections 0 <;> rfl

/-- No field is checked before the selections are: the root and the bindings are steps of `Follows`
for no selections. -/
theorem follows_ofOperation (schema : Schema) (fragments : List Fragment) (supplied : Members Json)
    (depthLimit : Nat) (name? : Option String) (operation : Operation) :
    Follows fragments operation.selections
      (ofOperationRecorded schema fragments supplied depthLimit name? operation) := by
  have hroot : Follows fragments [] (liftM (rootOf schema operation) : Checking TypeDef) :=
    .lift (fun _ h => (faults_rootOf schema operation _ h).elim) fun _ _ => rfl
  have hbindings : Follows fragments []
      (liftM (operation.bindings supplied) : Checking (Members Value)) :=
    .lift (fun _ h => (Operation.faults_bindingsFrom supplied operation.declared [] _ h).elim)
      fun _ _ => rfl
  refine hroot.bind fun root => hbindings.bind fun bindings => ?_
  let checker : Checker := ⟨schema, bindings, fragments, depthLimit⟩
  have hselect : Follows checker.fragments operation.selections
      (checker.selectRecorded root operation.selections) :=
    follows_select root operation.selections
  exact hselect.andThen fun fields => .pure _

/-- What is recorded of a document: no more fields than an operation may select, and just as many if
it is rejected for selecting more. If an operation is chosen, then they are the first of its fields
as they stand when fragments are written out, and all of them if it is accepted. -/
theorem follows_ofDocument {schema : Schema} {document : Document} {operationName? : Option String}
    {supplied : Members Json} {depthLimit : Nat} {outcome : Except Rejection Plan}
    {checked : List Position}
    (h : ofDocumentRecorded schema document operationName? supplied depthLimit =
      (outcome, checked)) :
    checked.length ≤ fieldLimit ∧
    (∀ place, outcome = .error (.tooManyFields place) → checked.length = fieldLimit) ∧
    ∀ name? operation written, document.choose operationName? = .ok (name?, operation) →
      Inlined document.fragments operation.selections written →
      checked <+: Selection.placesAll written ∧
        ∀ plan, outcome = .ok plan → checked = Selection.placesAll written := by
  rw [ofDocumentRecorded] at h
  cases hchoose : document.choose operationName? with
  | error rejection =>
    rw [hchoose] at h
    obtain ⟨rfl, rfl⟩ := Prod.mk.inj h
    refine ⟨Nat.zero_le _, fun place hmany => ?_, fun _ _ _ hok => by cases hok⟩
    obtain rfl := Except.error.inj hmany
    exact (document.faults_choose operationName? _ hchoose).elim
  | ok chosen =>
    obtain ⟨name?, operation⟩ := chosen
    rw [hchoose] at h
    have hrun : (ofOperationRecorded schema document.fragments supplied depthLimit name?
        operation).run [] = (outcome, checked) := h
    obtain ⟨more, hmore, happends⟩ :=
      follows_ofOperation schema document.fragments supplied depthLimit name? operation []
        (Nat.zero_le _)
    rw [hrun] at hmore happends
    obtain rfl : checked = more := hmore
    refine ⟨happends.bounded, happends.full, fun name? operation written hok hwritten => ?_⟩
    obtain ⟨rfl, rfl⟩ := Prod.mk.inj (Except.ok.inj hok)
    exact ⟨happends.first written hwritten, fun plan => happends.all written plan hwritten⟩

end Plan

end FeedGraph
