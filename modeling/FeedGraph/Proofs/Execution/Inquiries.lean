import Mathlib.Logic.Relation
import FeedGraph.Proofs.Execution.Answers
import FeedGraph.Proofs.Execution.Reports

/-!
# Inquiries: what is asked, and how often

An inquiry is made for every field that is selected of an object that is reached, unless it is the
name of the type. The object of the root is reached. Others are reached through a field of an object
that is: they are what was resolved for it, or the items of a list that was, or the items of these,
as its type says. Nothing else counts, so that other fields and other items, whatever comes of them,
have no influence, and nothing is reached through a value that is null, not there or of another
shape than its type.

`Spot.Asked` says so without regard to how a plan is executed. That what an execution records is
asked in this sense, and all that is, is shown along the recorded fibers, part by part (`Exactly`).
The main statement is `Executor.execute_asks`, about the reports of watched resolvers.
-/

namespace FeedGraph

/-! ## What is reached -/

/-- An object of which something is selected, with all that an inquiry about it depends on. The same
object may be reached at several places; these are different spots, as their paths are. -/
structure Spot where
  /-- the name of its type -/
  type : String
  /-- the object -/
  object : Json
  /-- where it belongs in the data -/
  path : Path
  /-- what is selected of it -/
  selected : List PlannedField

namespace Spot

def inquiry (spot : Spot) (field : PlannedField) : Inquiry :=
  ⟨spot.type, spot.object, spot.path ++ [.field field.output], field⟩

section

variable (schema : Schema) (selected : List PlannedField)

/-- `Within type value path spot`: the object of the spot is found in a `value` of the type that
stands at the path. The constructors are the two shapes in which a type can have objects in it;
there is none for values that do not have the shape of their type, which is how they lead
nowhere. -/
inductive Within : TypeRef → Json → Path → Spot → Prop where
  /-- the value is an object -/
  | object {name : String} {nullable : Bool} {members : List (String × Json)} {path : Path} :
      schema.isLeaf name = false →
        Within (.named name nullable) (.object members) path ⟨name, .object members, path, selected⟩
  /-- the object is found in an item of the value -/
  | item {item : TypeRef} {nullable : Bool} {items : List Json} {path : Path} {value : Json}
      {index : Nat} {spot : Spot} : (value, index) ∈ items.zipIdx →
        Within item value (path ++ [.index index]) spot →
          Within (.list item nullable) (.array items) path spot

end

variable (schema : Schema) (outcome : Inquiry → Outcome)

/-- One spot leads to another through a field: the outcome for the field is a value and the other
spot is `Within` it. A fault leads nowhere. -/
def Through (spot : Spot) (field : PlannedField) (below : Spot) : Prop :=
  field.name ≠ PlannedField.typename ∧ ∃ value, outcome (spot.inquiry field) = .ok value ∧
    Within schema field.fields field.type value (spot.inquiry field).path below

def Leads (spot below : Spot) : Prop :=
  ∃ field ∈ spot.selected, spot.Through schema outcome field below

/-- What is asked, as a relation that does not mention fibers, rounds or completions: the inquiry
for a field, other than the name of the type, of a spot to which the first one leads in any number
of steps. -/
def Asked (start : Spot) (asked : Inquiry) : Prop :=
  ∃ spot, Relation.ReflTransGen (Leads schema outcome) start spot ∧
    ∃ field ∈ spot.selected, field.name ≠ PlannedField.typename ∧ asked = spot.inquiry field

/-- The share of one field in what is asked: the inquiry for it, and what is asked of the spots it
leads to. This is the form in which the induction on what is selected goes. -/
def AskedFor (start : Spot) (field : PlannedField) (asked : Inquiry) : Prop :=
  (field.name ≠ PlannedField.typename ∧ asked = start.inquiry field) ∨
    ∃ below, start.Through schema outcome field below ∧ below.Asked schema outcome asked

variable {schema outcome}

/-- What is asked of a spot is what is asked for its fields. The first step of the chain in
`Spot.Asked`, if it has one, goes through one of them. -/
theorem asked_iff {start : Spot} {asked : Inquiry} :
    start.Asked schema outcome asked ↔
      ∃ field ∈ start.selected, start.AskedFor schema outcome field asked := by
  constructor
  · rintro ⟨spot, hreached, field, hmem, hname, rfl⟩
    rcases hreached.cases_head with rfl | ⟨below, ⟨through, hthrough, hbelow⟩, hreached⟩
    · exact ⟨field, hmem, .inl ⟨hname, rfl⟩⟩
    · exact ⟨through, hthrough, .inr ⟨below, hbelow, spot, hreached, field, hmem, hname, rfl⟩⟩
  · rintro ⟨field, hmem, ⟨hname, rfl⟩ | ⟨below, hbelow, spot, hreached, hasked⟩⟩
    · exact ⟨start, .refl, field, hmem, hname, rfl⟩
    · exact ⟨spot, .head ⟨field, hmem, hbelow⟩ hreached, hasked⟩

section

variable {spot : Spot} {field : PlannedField} {asked : Inquiry}

/-- For a value, `AskedFor` is what the fiber of the field does: it asks for the field, and then
completes the value. -/
theorem askedFor_ok (hname : field.name ≠ PlannedField.typename) {value : Json}
    (h : outcome (spot.inquiry field) = .ok value) :
    spot.AskedFor schema outcome field asked ↔ asked = spot.inquiry field ∨ ∃ below,
      Within schema field.fields field.type value (spot.inquiry field).path below ∧
        below.Asked schema outcome asked := by
  constructor
  · rintro (⟨-, rfl⟩ | ⟨below, ⟨-, found, hfound, hwithin⟩, hasked⟩)
    · exact .inl rfl
    · obtain rfl : value = found := Except.ok.inj (h.symm.trans hfound)
      exact .inr ⟨below, hwithin, hasked⟩
  · rintro (rfl | ⟨below, hwithin, hasked⟩)
    · exact .inl ⟨hname, rfl⟩
    · exact .inr ⟨below, ⟨hname, value, h, hwithin⟩, hasked⟩

theorem askedFor_error (hname : field.name ≠ PlannedField.typename) {fault : Fault}
    (h : outcome (spot.inquiry field) = .error fault) :
    spot.AskedFor schema outcome field asked ↔ asked = spot.inquiry field := by
  constructor
  · rintro (⟨-, rfl⟩ | ⟨below, ⟨-, found, hfound, -⟩, -⟩)
    · rfl
    · cases h.symm.trans hfound
  · rintro rfl
    exact .inl ⟨hname, rfl⟩

theorem not_askedFor_typename (hname : field.name = PlannedField.typename) :
    ¬spot.AskedFor schema outcome field asked := by
  rintro (⟨hne, -⟩ | ⟨below, ⟨hne, -⟩, -⟩) <;> exact hne hname

end

section

variable {selected : List PlannedField} {path : Path} {spot : Spot}

/-- The cases in which a completion fails for the shape of a value are those in which nothing is
reached: here, and in the next two lemmas, one for each of them. -/
theorem not_within_notObject {name : String} {nullable : Bool} {value : Json}
    (hvalue : ∀ members, value ≠ .object members) :
    ¬Within schema selected (.named name nullable) value path spot := by
  rintro ⟨-⟩
  exact hvalue _ rfl

theorem not_within_notList {item : TypeRef} {nullable : Bool} {value : Json}
    (hvalue : ∀ items, value ≠ .array items) :
    ¬Within schema selected (.list item nullable) value path spot := by
  rintro ⟨-⟩
  exact hvalue _ rfl

theorem not_within_leaf {name : String} {nullable : Bool} {value : Json}
    (hleaf : schema.isLeaf name = true) :
    ¬Within schema selected (.named name nullable) value path spot := by
  rintro ⟨hobject⟩
  rw [hleaf] at hobject
  cases hobject

theorem within_object {name : String} {nullable : Bool} {members : List (String × Json)}
    (hleaf : schema.isLeaf name = false) :
    Within schema selected (.named name nullable) (.object members) path spot ↔
      spot = ⟨name, .object members, path, selected⟩ := by
  constructor
  · rintro ⟨-⟩
    rfl
  · rintro rfl
    exact .object hleaf

theorem within_list {item : TypeRef} {nullable : Bool} {items : List Json} :
    Within schema selected (.list item nullable) (.array items) path spot ↔
      ∃ part ∈ items.zipIdx, Within schema selected item part.1 (path ++ [.index part.2]) spot := by
  constructor
  · rintro (_ | ⟨hmem, hwithin⟩)
    exact ⟨_, hmem, hwithin⟩
  · rintro ⟨⟨value, index⟩, hmem, hwithin⟩
    exact .item hmem hwithin

end

end Spot

/-! ## Exact records -/

/-- `Log.Agrees` gives each entry of the record the outcome that is looked up for its inquiry, so
that the reports are known from the inquiries alone. -/
theorem Log.reports_eq {log : Log} {outcome : Inquiry → Outcome} (h : log.Agrees outcome) :
    log.reports = (log.map Prod.fst).flatMap fun inquiry => inquiry.reports (outcome inquiry) := by
  rw [reports, List.flatMap_map]
  exact List.flatMap_congr fun entry hmem => by rw [h entry hmem]

/-- An inquiry is recorded if and only if it is asked. As what is asked depends on outcomes that are
only known from a record, it is given as a function of them; the outcomes may be any that agree with
this record, so that those of the whole record do for each part of it. -/
def Exactly {α : Type} (asked : (Inquiry → Outcome) → Inquiry → Prop) (recorded : Recorded α) :
    Prop :=
  ∀ outcome, recorded.log.Agrees outcome →
    ∀ inquiry, inquiry ∈ recorded.log.map Prod.fst ↔ asked outcome inquiry

namespace Exactly

variable {α β : Type} {asked asked' : (Inquiry → Outcome) → Inquiry → Prop} {recorded : Recorded α}

theorem nothing (result : α) (h : ∀ outcome inquiry, ¬asked outcome inquiry) :
    Exactly asked ⟨result, []⟩ := by
  intro outcome _ inquiry
  simp [h outcome inquiry]

theorem congr (h : Exactly asked recorded)
    (hasked : ∀ outcome inquiry, asked' outcome inquiry ↔ asked outcome inquiry) :
    Exactly asked' recorded := by
  intro outcome hlog inquiry
  rw [h outcome hlog inquiry, hasked]

theorem map (h : Exactly asked recorded) (f : α → β) : Exactly asked (recorded.map f) := h

/-- One more inquiry in front, with its outcome: what is asked then may depend on this outcome,
which every agreeing function has to give back. -/
theorem after (h : Exactly asked recorded) {first : Inquiry} {result : Outcome}
    (hasked : ∀ outcome, outcome first = result →
      ∀ inquiry, asked' outcome inquiry ↔ inquiry = first ∨ asked outcome inquiry) :
    Exactly asked' (recorded.after first result) := by
  intro outcome hlog inquiry
  obtain ⟨hfirst, hlog⟩ := List.forall_mem_cons.mp hlog
  rw [hasked outcome hfirst, ← h outcome hlog, Recorded.after, List.map_cons, List.mem_cons]

/-- Parts whose records are put together, item by item. That no inquiry is in two of them is not
part of `Exactly`; it is known of the whole record, whose paths are all different. -/
theorem gather {ι : Type} {items : List ι} {part : ι → (Inquiry → Outcome) → Inquiry → Prop}
    {parts : List (Recorded α)} (f : List α → β)
    (h : List.Forall₂ (fun item recorded => Exactly (part item) recorded) items parts) :
    Exactly (fun outcome inquiry => ∃ item ∈ items, part item outcome inquiry)
      (Recorded.gather f parts) := by
  intro outcome hlog inquiry
  simp only [Recorded.gather] at hlog ⊢
  induction h with
  | nil => simp
  | @cons item recorded items parts hitem _ ih =>
    obtain ⟨hfirst, hrest⟩ := List.forall_mem_append.mp hlog
    rw [List.exists_mem_cons_iff, ← hitem outcome hfirst, ← ih hrest, List.flatMap_cons,
      List.map_append, List.mem_append]

end Exactly

namespace Executor

variable {σ : Type}

/-- The induction is on the type, along `completeRecorded`. A completion asks for nothing itself; it
reaches the spots `Within` the value, and what is asked of these is the hypothesis `hselect`. -/
theorem ends_exactly_complete {schema : Schema} {site : Site} {selected : List PlannedField}
    {select : String → Json → Path → Fiber σ (Recorded Completion)}
    (hselect : ∀ name object path, (select name object path).Ends
      (Exactly fun outcome => Spot.Asked schema outcome ⟨name, object, path, selected⟩))
    (type : TypeRef) (value : Json) (path : Path) :
    (completeRecorded schema site select type value path).Ends
      (Exactly fun outcome inquiry => ∃ below,
        Spot.Within schema selected type value path below ∧
          below.Asked schema outcome inquiry) := by
  induction type generalizing value path with
  | named name nullable =>
    cases value with
    | null =>
      cases nullable <;>
        exact .nothing _ fun _ _ h => Spot.not_within_notObject (by simp) h.choose_spec.1
    | object members =>
      rw [completeRecorded]
      split
      · next hleaf =>
        exact .nothing _ fun _ _ h => Spot.not_within_leaf hleaf h.choose_spec.1
      · next hleaf =>
        refine Fiber.ends_map (hselect name (.object members) path)
          fun _ h => (h.map _).congr fun outcome inquiry => ?_
        simp only [Spot.within_object (Bool.eq_false_iff.mpr hleaf), exists_eq_left]
    | _ =>
      simp only [completeRecorded]
      split <;> exact .nothing _ fun _ _ h => Spot.not_within_notObject (by simp) h.choose_spec.1
  | list item nullable ih =>
    cases value with
    | null =>
      cases nullable <;>
        exact .nothing _ fun _ _ h => Spot.not_within_notList (by simp) h.choose_spec.1
    | array items =>
      rw [completeRecorded]
      refine Fiber.ends_map (Fiber.ends_all fun x _ => ih x.1 (path ++ [.index x.2]))
        fun parts hparts => (Exactly.gather _ hparts).congr fun outcome inquiry => ?_
      simp only [Spot.within_list]
      constructor
      · rintro ⟨below, ⟨part, hmem, hwithin⟩, hasked⟩
        exact ⟨part, hmem, below, hwithin, hasked⟩
      · rintro ⟨part, hmem, below, hwithin, hasked⟩
        exact ⟨below, ⟨part, hmem, hwithin⟩, hasked⟩
    | _ => exact .nothing _ fun _ _ h => Spot.not_within_notList (by simp) h.choose_spec.1

/-- `objectRecorded` gathers the records of the fields, and so does `Spot.asked_iff`. -/
theorem ends_exactly_object (executor : Executor σ) (spot : Spot)
    (h : ∀ field ∈ spot.selected,
      (executor.fieldRecorded spot.type spot.object spot.path field).Ends
        (Exactly fun outcome => spot.AskedFor executor.schema outcome field)) :
    (executor.objectRecorded spot.selected spot.type spot.object spot.path).Ends
      (Exactly fun outcome => spot.Asked executor.schema outcome) :=
  Fiber.ends_map (Fiber.ends_all h) fun _ hparts =>
    (Exactly.gather _ hparts).congr fun _ _ => Spot.asked_iff

/-- The induction is on what is selected of the field: its own inquiry comes first
(`Exactly.after`), and what is selected of its value is asked of smaller fields. -/
theorem ends_exactly_field (executor : Executor σ) (field : PlannedField) (spot : Spot) :
    (executor.fieldRecorded spot.type spot.object spot.path field).Ends
      (Exactly fun outcome => spot.AskedFor executor.schema outcome field) := by
  induction field using PlannedField.induction generalizing spot with
  | step field ih =>
    have hselect : ∀ name object path, (executor.objectRecorded field.fields name object path).Ends
        (Exactly fun outcome =>
          Spot.Asked executor.schema outcome ⟨name, object, path, field.fields⟩) := by
      intro name object path
      exact ends_exactly_object executor ⟨name, object, path, field.fields⟩
        fun below hmem => ih below hmem _
    rw [fieldRecorded_eq]
    split
    · next hname => exact .nothing _ fun _ _ => Spot.not_askedFor_typename hname
    · next hname =>
      intro state
      refine Fiber.ends_bind (Fiber.ends_true _) fun result _ => ?_
      cases result with
      | error fault =>
        have hnothing := Exactly.nothing ((Completion.failed ⟨.fault fault, field.position,
          (spot.inquiry field).path⟩).absorb field.type.nullable) fun _ _ => not_false
        refine hnothing.after fun outcome houtcome inquiry => ?_
        rw [or_false]
        exact Spot.askedFor_error hname houtcome
      | ok value =>
        refine Fiber.ends_map (ends_exactly_complete hselect field.type value _) fun _ h => ?_
        exact h.after fun outcome houtcome inquiry => Spot.askedFor_ok hname houtcome

/-- At the root, nothing is asked before: the first spot is the empty object at the empty path, with
the fields of the plan. -/
theorem ends_exactly_execute (executor : Executor σ) (plan : Plan) :
    (executor.executeRecorded plan).Ends (Exactly fun outcome => Spot.Asked executor.schema outcome
      ⟨(executor.schema.root? plan.kind).getD "", .object [], [], plan.fields⟩) := by
  have hfields := fun field (_ : field ∈ plan.fields) => ends_exactly_field executor field
    ⟨(executor.schema.root? plan.kind).getD "", .object [], [], plan.fields⟩
  rw [executeRecorded, fieldsRecorded_eq_map]
  refine Fiber.ends_map ?_ fun parts hparts =>
    (Exactly.gather _ hparts).congr fun _ _ => Spot.asked_iff
  -- in turns or one after the other, each fiber ends as it does alone
  split
  · exact Fiber.ends_sequence hfields
  · exact Fiber.ends_all hfields

/-- What the resolvers are called for when an accepted operation is executed. There is a list of
inquiries without repetitions, which are exactly those with `Spot.Asked`, and the reports of the
watched resolvers are those of these inquiries, one call and one outcome each. So a resolver is
called once for each field of each object that is reached, with this object and the arguments of the
field, and never for anything else; response and state are those of the executor without reports. -/
theorem execute_asks (executor : Executor σ) {document : Document} {operationName? : Option String}
    {supplied : Members Json} {depthLimit : Nat} {plan : Plan}
    (h : Plan.ofDocument executor.schema document operationName? supplied depthLimit = .ok plan)
    (state : σ) :
    let run := (executor.execute plan).run state
    let outcome := ((executor.executeRecorded plan).run state).1.log.outcome
    ∃ (root : String) (inquiries : List Inquiry) (reports : List Report),
      executor.schema.root? plan.kind = some root ∧
      (executor.watched.execute plan).run (state, []) = (run.1, run.2, reports) ∧
      reports.Perm (inquiries.flatMap fun inquiry => inquiry.reports (outcome inquiry)) ∧
      (inquiries.map Inquiry.path).Nodup ∧
      ∀ inquiry, inquiry ∈ inquiries ↔
        Spot.Asked executor.schema outcome ⟨root, .object [], [], plan.fields⟩ inquiry := by
  obtain ⟨root, hroot, hdistinct, hdeclared⟩ := Plan.declared_ofDocument h
  have hwatched : ∀ field ∈ plan.fields, field.Throughout executor.AsksWatched
      ((executor.schema.root? plan.kind).getD "") := by
    rw [hroot]
    exact fun field hmem => (hdeclared field hmem).mono fun _ _ => asksWatched_of_declared
  obtain ⟨reports, hrun, hperm⟩ := run_watched executor hwatched state
  obtain ⟨hnodup, -⟩ := (ends_executeRecorded executor hdistinct).run state
  have hlog := Log.agrees_outcome hnodup
  have hexactly := (ends_exactly_execute executor plan).run state
  rw [hroot, Option.getD_some] at hexactly
  refine ⟨root, _, reports, hroot, hrun, ?_, ?_, hexactly _ hlog⟩
  · rwa [Log.reports_eq hlog] at hperm
  · rwa [List.map_map]

end Executor

namespace Concerts

/-- What is asked of the gala. -/
theorem gala_asks :
    Plan.ofDocument executor.schema document none [] 16 = .ok plan ∧
    let run := (executor.execute plan).run 0
    let outcome := ((executor.executeRecorded plan).run 0).1.log.outcome
    ∃ (root : String) (inquiries : List Inquiry) (reports : List Report),
      executor.schema.root? plan.kind = some root ∧
      (executor.watched.execute plan).run (0, []) = (run.1, run.2, reports) ∧
      reports.Perm (inquiries.flatMap fun inquiry => inquiry.reports (outcome inquiry)) ∧
      (inquiries.map Inquiry.path).Nodup ∧
      ∀ inquiry, inquiry ∈ inquiries ↔
        Spot.Asked executor.schema outcome ⟨root, .object [], [], plan.fields⟩ inquiry :=
  ⟨ofDocument_eq, Executor.execute_asks executor ofDocument_eq 0⟩

/-- The venue is asked for its name twice, as it is selected under two names, and the act that is
there for its title; that the other one is missing and the name null makes no difference. -/
example : ((executor.watched.execute plan).run (0, [])).2.2.filterMap (fun report =>
      match report with
      | .asked call => some (call.type, call.field)
      | .ended _ _ => none) =
    [("Query", "concert"), ("Concert", "title"), ("Concert", "venue"), ("Venue", "name"),
      ("Venue", "name"), ("Concert", "acts"), ("Concert", "title")] := by
  rfl

end Concerts

end FeedGraph
