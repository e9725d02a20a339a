import Mathlib.Algebra.BigOperators.Group.List.Basic
import Mathlib.Algebra.Order.Group.Multiset
import FeedGraph.Proofs.Execution.Tallies
import FeedGraph.Proofs.Plan.Typing

/-!
# Reports: resolvers that are watched

A resolver is watched by letting it report when it is asked, and for what, and again when its
outcome is there. `Executor.watched` does so with the resolvers of all fields that a schema
declares, those without one of their own included; the reports are a second part of the state.

`Fiber.FollowsFrom` says that a fiber with this second part does what another one does without it,
and how much it reports meanwhile. Fibers that take turns report in whatever order comes of that,
so what they report is counted, not listed. That watching changes nothing and that what is reported
is what is recorded (`Executor.run_watched`) is shown at once, from the fibers of the resolvers up
to those of whole plans.
-/

namespace FeedGraph

/-! ## Calls of resolvers -/

/-- What a resolver is called with. Unlike an `Inquiry` this has no path: a resolver is not told
where its value will stand, and neither does a watched one know it. -/
structure ResolverCall where
  /-- the name of the object's type -/
  type : String
  /-- the name of the field -/
  field : String
  /-- the object -/
  parent : Json
  /-- the arguments -/
  arguments : Members Value

/-- What a watched resolver writes into the second part of the state. -/
inductive Report where
  /-- it is called -/
  | asked (call : ResolverCall)
  /-- the outcome of a call is there -/
  | ended (call : ResolverCall) (outcome : Outcome)

/-- The call by which something is asked. -/
def Inquiry.call (inquiry : Inquiry) : ResolverCall :=
  ⟨inquiry.type, inquiry.field.name, inquiry.parent, inquiry.field.arguments⟩

/-- The reports of an inquiry and its outcome. -/
def Inquiry.reports (inquiry : Inquiry) (outcome : Outcome) : List Report :=
  [.asked inquiry.call, .ended inquiry.call outcome]

/-- The reports of all that is recorded, two for each entry of a `Log`. They are compared as a
multiset, as inquiries of fibers that take turns overlap. -/
def Log.reports (log : Log) : List Report := log.flatMap fun entry => entry.1.reports entry.2

/-! ## Watching -/

/-- A fiber on a larger state, which leaves the second part as it finds it. It keeps the pauses, so
that others get their turns at the same points. -/
def Fiber.beside {σ τ α : Type} : Fiber σ α → Fiber (σ × τ) α
  | .done a => .done a
  | .read next => .read fun p => (next p.1).beside
  | .write s next => .read fun p => .write (s, p.2) next.beside
  | .pause next => .pause next.beside

/-- The resolver that the `table` has for a field, `Fiber.beside` the reports, between two writes:
one report before its first step and one, with its outcome, after its last. -/
def ResolverTable.watch {σ : Type} (table : ResolverTable σ) (type field : String) :
    Resolver (σ × List Report) :=
  fun parent arguments (state, reports) =>
    let call : ResolverCall := ⟨type, field, parent, arguments⟩
    let (resolution, state) := table.resolve type field parent arguments state
    (.deferred (resolution.fiber.beside.bind fun outcome =>
        .step fun (state, reports) => (outcome, (state, reports ++ [.ended call outcome]))),
      (state, reports ++ [.asked call]))

/-- The fields that a schema declares, each with its type. These are all that can be asked for in an
accepted plan (`asksWatched_of_declared`). -/
def Schema.fields (schema : Schema) : List (String × String) :=
  schema.types.flatMap fun type => type.kind.fields.map fun field => (type.name, field.name)

/-- The same executor with all resolvers watched. Fields without a resolver of their own get one,
the watched default, as otherwise their values would be found without a report. -/
def Executor.watched {σ : Type} (executor : Executor σ) : Executor (σ × List Report) where
  schema := executor.schema
  resolvers := ⟨executor.schema.fields.map fun (type, field) =>
    ⟨type, field, executor.resolvers.watch type field⟩⟩

theorem Schema.mem_fields {schema : Schema} {type field : String} {definition : FieldDef}
    (h : schema.field? type field = some definition) : (type, field) ∈ schema.fields := by
  rw [field?, Option.bind_eq_bind, Option.bind_eq_some_iff] at h
  obtain ⟨container, hcontainer, hfield⟩ := h
  have hname : container.name = type := by simpa using List.find?_some hcontainer
  have hname' : definition.name = field := by simpa using List.find?_some hfield
  refine List.mem_flatMap.mpr ⟨container, List.mem_of_find?_eq_some hcontainer, ?_⟩
  exact List.mem_map.mpr ⟨definition, List.mem_of_find?_eq_some hfield, by rw [hname, hname']⟩

/-- A declared field is in the table of `Executor.watched`, so that its resolver is the watched one
and not the default. -/
theorem Executor.resolve_watched {σ : Type} {executor : Executor σ} {type field : String}
    (h : (type, field) ∈ executor.schema.fields) (parent : Json) (arguments : Members Value)
    (state : σ × List Report) :
    executor.watched.resolvers.resolve type field parent arguments state =
      executor.resolvers.watch type field parent arguments state := by
  have hget : executor.watched.resolvers.get? type field =
      some (executor.resolvers.watch type field) := by
    have hsome : (executor.watched.resolvers.entries.find?
        fun entry => entry.type == type && entry.field == field).isSome := by
      refine List.find?_isSome.mpr
        ⟨⟨type, field, executor.resolvers.watch type field⟩, List.mem_map.mpr ⟨_, h, rfl⟩, ?_⟩
      simp
    obtain ⟨entry, hentry⟩ := Option.isSome_iff_exists.mp hsome
    obtain ⟨⟨type', field'⟩, -, rfl⟩ := List.mem_map.mp (List.mem_of_find?_eq_some hentry)
    -- entries of one field are the same, so that it does not matter which one is found
    obtain ⟨rfl, rfl⟩ : type' = type ∧ field' = field := by simpa using List.find?_some hentry
    rw [ResolverTable.get?, hentry, Option.map_some]
  rw [ResolverTable.resolve, hget]

/-! ## Following another fiber -/

namespace Fiber

variable {σ ρ α β γ δ ι : Type}

/-- `FollowsFrom view told p sofar fiber other`: started from `p`, the `fiber` does on the first
part of the state what `other` does on all of it, and ends with what is seen by `view` in the result
`b` of `other`. What it adds to the reports until then, with those that were added before (`sofar`),
is `told b`. After a pause the state may be any other one, as it is for a fiber among others, but
`sofar` has to be kept, because the result from which it is known only comes later. -/
inductive FollowsFrom (view : β → α) (told : β → Multiset ρ) :
    σ × List ρ → Multiset ρ → Fiber (σ × List ρ) α → Fiber σ β → Prop where
  /-- both are finished -/
  | done {p : σ × List ρ} {sofar : Multiset ρ} {a : α} {b : β} : a = view b → sofar = told b →
      FollowsFrom view told p sofar (.done a) (.done b)
  /-- both go on as the state tells -/
  | read {p : σ × List ρ} {sofar : Multiset ρ} {next : σ × List ρ → Fiber (σ × List ρ) α}
      {next' : σ → Fiber σ β} : FollowsFrom view told p sofar (next p) (next' p.1) →
        FollowsFrom view told p sofar (.read next) (.read next')
  /-- both replace the state -/
  | write {p q : σ × List ρ} {sofar more : Multiset ρ} {next : Fiber (σ × List ρ) α}
      {next' : Fiber σ β} : (q.2 : Multiset ρ) = p.2 + more →
        FollowsFrom view told q (sofar + more) next next' →
          FollowsFrom view told p sofar (.write q next) (.write q.1 next')
  /-- one looks at the state alone -/
  | look {p : σ × List ρ} {sofar : Multiset ρ} {next : σ × List ρ → Fiber (σ × List ρ) α}
      {other : Fiber σ β} : FollowsFrom view told p sofar (next p) other →
        FollowsFrom view told p sofar (.read next) other
  /-- one reports, and leaves the first part as it is -/
  | tell {p : σ × List ρ} {reports : List ρ} {sofar more : Multiset ρ}
      {next : Fiber (σ × List ρ) α} {other : Fiber σ β} : (reports : Multiset ρ) = p.2 + more →
        FollowsFrom view told (p.1, reports) (sofar + more) next other →
          FollowsFrom view told p sofar (.write (p.1, reports) next) other
  /-- both pause -/
  | pause {p : σ × List ρ} {sofar : Multiset ρ} {next : Fiber (σ × List ρ) α}
      {next' : Fiber σ β} : (∀ q, FollowsFrom view told q sofar next next') →
        FollowsFrom view told p sofar (.pause next) (.pause next')

/-- `FollowsFrom` any state with nothing reported so far. -/
def Follows (view : β → α) (told : β → Multiset ρ) (fiber : Fiber (σ × List ρ) α)
    (other : Fiber σ β) : Prop :=
  ∀ p, FollowsFrom view told p 0 fiber other

variable {view : β → α} {told : β → Multiset ρ} {view' : δ → γ} {told' : δ → Multiset ρ}
  {p : σ × List ρ} {sofar more : Multiset ρ} {fiber : Fiber (σ × List ρ) α} {other : Fiber σ β}

/-- What `FollowsFrom` means for a fiber that runs alone. The equation between multisets is the one
that the main statement of this module rests on: reports at the end, with those before the start,
are the reports that were there and those that the result tells. -/
theorem FollowsFrom.run (h : FollowsFrom view told p sofar fiber other) :
    (fiber.run p).1 = view (other.run p.1).1 ∧ (fiber.run p).2.1 = (other.run p.1).2 ∧
      ((fiber.run p).2.2 : Multiset ρ) + sofar = p.2 + told (other.run p.1).1 := by
  induction h with
  | done hview htold => exact ⟨hview, rfl, congrArg _ htold⟩
  | read _ ih => exact ih
  | @write p q sofar more next next' hmore _ ih =>
    obtain ⟨hresult, hstate, htold⟩ := ih
    refine ⟨hresult, hstate, ?_⟩
    rw [hmore, add_right_comm, ← add_assoc] at htold
    exact add_right_cancel htold
  | look _ ih => exact ih
  | @tell p reports sofar more next other hmore _ ih =>
    obtain ⟨hresult, hstate, htold⟩ := ih
    refine ⟨hresult, hstate, ?_⟩
    rw [hmore, add_right_comm, ← add_assoc] at htold
    exact add_right_cancel htold
  | @pause p _ _ _ _ ih => exact ih p

/-- The results are passed on, and what is told by the first ones is what has been reported when the
second fibers start. -/
theorem FollowsFrom.bind {k : α → Fiber (σ × List ρ) γ} {k' : β → Fiber σ δ}
    (h : FollowsFrom view told p sofar fiber other)
    (hk : ∀ b q, FollowsFrom view' told' q (told b) (k (view b)) (k' b)) :
    FollowsFrom view' told' p sofar (fiber.bind k) (other.bind k') := by
  induction h with
  | @done p sofar a b hview htold =>
    rw [hview, htold]
    exact hk b p
  | read _ ih => exact .read ih
  | write hmore _ ih => exact .write hmore ih
  | look _ ih => exact .look ih
  | tell hmore _ ih => exact .tell hmore ih
  | pause _ ih => exact .pause ih

/-- `FollowsFrom.bind` with fibers that are done at once. -/
theorem FollowsFrom.map {f : α → γ} {g : β → δ} (h : FollowsFrom view told p sofar fiber other)
    (hview : ∀ b, view' (g b) = f (view b)) (htold : ∀ b, told' (g b) = told b) :
    FollowsFrom view' told' p sofar (fiber.map f) (other.map g) := by
  exact h.bind fun b _ => .done (hview b).symm (htold b).symm

/-- The following fiber goes on where the other one is done: as a watched resolver does, which still
has to report the outcome. -/
theorem FollowsFrom.bind_left {view' : β → γ} {told' : β → Multiset ρ}
    {k : α → Fiber (σ × List ρ) γ} (h : FollowsFrom view told p sofar fiber other)
    (hk : ∀ b q, FollowsFrom view' told' q (told b) (k (view b)) (.done b)) :
    FollowsFrom view' told' p sofar (fiber.bind k) other := by
  rw [← bind_done other]
  exact h.bind hk

theorem FollowsFrom.map_right {view' : δ → α} {told' : δ → Multiset ρ} {g : β → δ}
    (h : FollowsFrom view told p sofar fiber other) (hview : ∀ b, view' (g b) = view b)
    (htold : ∀ b, told' (g b) = told b) :
    FollowsFrom view' told' p sofar fiber (other.map g) := by
  rw [← bind_done fiber]
  exact h.bind fun b _ => .done (hview b).symm (htold b).symm

/-- Reports that were made before can be put in front on both sides. `FollowsFrom.both` needs this
for the first fiber when the second one has reported something already. -/
theorem FollowsFrom.add (h : FollowsFrom view told p sofar fiber other) (more : Multiset ρ) :
    FollowsFrom view (fun b => more + told b) p (more + sofar) fiber other := by
  induction h with
  | done hview htold => exact .done hview (congrArg _ htold)
  | read _ ih => exact .read ih
  | write hmore _ ih => exact .write hmore (by rwa [add_assoc])
  | look _ ih => exact .look ih
  | tell hmore _ ih => exact .tell hmore (by rwa [add_assoc])
  | pause _ ih => exact .pause ih

/-- `Fiber.untilPause` runs a fiber to its next pause and hands the rest to `resume`. If the rests
follow each other from any state, with `left` reported, then so do the results of `resume`. -/
theorem FollowsFrom.untilPause {resume : Fiber (σ × List ρ) α → Fiber (σ × List ρ) γ}
    {resume' : Fiber σ β → Fiber σ δ} (h : FollowsFrom view told p sofar fiber other)
    (hresume : ∀ rest rest' left, (∀ q, FollowsFrom view told q left rest rest') →
      ∀ q, FollowsFrom view' told' q (more + left) (resume rest) (resume' rest')) :
    FollowsFrom view' told' p (more + sofar) (fiber.untilPause resume)
      (other.untilPause resume') := by
  induction h with
  | done hview htold => exact .pause (hresume _ _ _ fun _ => .done hview htold)
  | read _ ih => exact .read ih
  | write hmore _ ih => exact .write hmore (by rwa [add_assoc])
  | look _ ih => exact .look ih
  | tell hmore _ ih => exact .tell hmore (by rwa [add_assoc])
  | pause hnext _ => exact .pause (hresume _ _ _ hnext)

/-- Two fibers that take turns follow two others that do so. The induction is on the first pair: at
each of its pauses, the second pair is advanced to its own next pause by
`FollowsFrom.untilPause`. -/
theorem FollowsFrom.both {fiber' : Fiber (σ × List ρ) γ} {other' : Fiber σ δ}
    (h : FollowsFrom view told p sofar fiber other)
    (h' : ∀ q, FollowsFrom view' told' q more fiber' other') :
    FollowsFrom (Prod.map view view') (fun b => told b.1 + told' b.2) p (sofar + more)
      (fiber.both fiber') (other.both other') := by
  induction h generalizing fiber' other' more with
  | @done p sofar a b hview htold =>
    rw [hview, htold]
    exact ((h' p).add (told b)).map (fun _ => rfl) fun _ => rfl
  | read _ ih => exact .read (ih h')
  | write hmore _ ih => exact .write hmore (by rw [add_right_comm]; exact ih h')
  | look _ ih => exact .look (ih h')
  | tell hmore _ ih => exact .tell hmore (by rw [add_right_comm]; exact ih h')
  | @pause p _ _ _ _ ih => exact (h' p).untilPause fun rest rest' left hrest q => ih q hrest

theorem Follows.map {f : α → γ} {g : β → δ} (h : Follows view told fiber other)
    (hview : ∀ b, view' (g b) = f (view b)) (htold : ∀ b, told' (g b) = told b) :
    Follows view' told' (fiber.map f) (other.map g) :=
  fun p => (h p).map hview htold

/-- `FollowsFrom.both` for any number of fibers: what is told is the sum of what each of the results
tells. -/
theorem follows_all {items : List ι} {fiber : ι → Fiber (σ × List ρ) α} {other : ι → Fiber σ β}
    (h : ∀ item ∈ items, Follows view told (fiber item) (other item)) :
    Follows (List.map view) (fun bs => (bs.map told).sum) (all (items.map fiber))
      (all (items.map other)) := by
  induction items with
  | nil => exact fun _ => .done rfl rfl
  | cons item rest ih =>
    obtain ⟨hitem, hrest⟩ := List.forall_mem_cons.mp h
    intro p
    have hboth := (hitem p).both (ih hrest)
    rw [add_zero] at hboth
    exact hboth.map (fun _ => rfl) fun _ => List.sum_cons

/-- The same for fibers one after the other, by `FollowsFrom.bind`. -/
theorem follows_sequence {items : List ι} {fiber : ι → Fiber (σ × List ρ) α}
    {other : ι → Fiber σ β} (h : ∀ item ∈ items, Follows view told (fiber item) (other item)) :
    Follows (List.map view) (fun bs => (bs.map told).sum) (sequence (items.map fiber))
      (sequence (items.map other)) := by
  induction items with
  | nil => exact fun _ => .done rfl rfl
  | cons item rest ih =>
    obtain ⟨hitem, hrest⟩ := List.forall_mem_cons.mp h
    refine fun p => (hitem p).bind fun b q => ?_
    have hmore := (ih hrest q).add (told b)
    rw [add_zero] at hmore
    exact hmore.map (fun _ => rfl) fun _ => List.sum_cons

/-- A fiber that leaves the second part alone reports nothing: what has been reported when it starts
is what has been reported when it ends. -/
theorem followsFrom_beside (fiber : Fiber σ α) (p : σ × List ρ) (sofar : Multiset ρ) :
    FollowsFrom id (fun _ => sofar) p sofar fiber.beside fiber := by
  induction fiber generalizing p with
  | done a => exact .done rfl rfl
  | read next ih => exact .read (ih p.1 p)
  | write s next ih =>
    refine .look (.write (q := (s, p.2)) (add_zero _).symm ?_)
    rw [add_zero]
    exact ih (s, p.2)
  | pause next ih => exact .pause ih

end Fiber

/-! ## Watched executors -/

namespace Executor

variable {σ : Type}

/-- The condition on what is selected of an object of the type `container`: each field is declared
there, and its resolver is watched, or it is `PlannedField.typename`, for which no resolver is
asked. -/
def AsksWatched (executor : Executor σ) (container : String) (field : PlannedField) : Prop :=
  field.name = PlannedField.typename ∨ (container, field.name) ∈ executor.schema.fields

/-- The instance of `Follows` for parts of an execution: the `fiber` of the watched executor ends
with the result that the `recorded` one has, and reports what is in its log. -/
abbrev FollowsRecord {α : Type} (fiber : Fiber (σ × List Report) α)
    (recorded : Fiber σ (Recorded α)) : Prop :=
  fiber.Follows Recorded.result (fun record => (record.log.reports : Multiset Report)) recorded

/-- The inquiry of the watched executor reports `Inquiry.reports`, one before and one after
`Fiber.beside` of what the resolver does. -/
theorem follows_inquire {executor : Executor σ} {type : String} {asked : PlannedField}
    (h : (type, asked.name) ∈ executor.schema.fields) (parent : Json) (path : Path) :
    (executor.watched.inquire type parent asked).Follows id
      (fun outcome => (Inquiry.reports ⟨type, parent, path, asked⟩ outcome : Multiset Report))
      (executor.inquire type parent asked) := by
  intro p
  refine .read ?_
  rw [resolve_watched h, ResolverTable.watch]
  generalize executor.resolvers.resolve type asked.name parent asked.arguments p.1 = answer
  refine .write (Multiset.coe_add _ _).symm ?_
  refine (Fiber.followsFrom_beside _ _ _).bind_left fun outcome q => .look ?_
  refine .tell (Multiset.coe_add _ _).symm (.done rfl ?_)
  rw [zero_add]
  rfl

theorem followsRecord_done (completion : Completion) :
    FollowsRecord (.done completion) (.done ⟨completion, []⟩ : Fiber σ _) :=
  fun _ => .done rfl rfl

/-- Parts that are recorded one by one and put together by `Recorded.gather`: the reports of the
whole log are the sum of theirs. -/
theorem followsRecord_gather {α β : Type} {fiber : Fiber (σ × List Report) (List α)}
    {recorded : Fiber σ (List (Recorded α))}
    (h : fiber.Follows (List.map Recorded.result)
      (fun parts => (parts.map fun part => (part.log.reports : Multiset Report)).sum) recorded)
    (f : List α → β) : FollowsRecord (fiber.map f) (recorded.map (Recorded.gather f)) := by
  refine h.map (fun _ => rfl) fun parts => ?_
  induction parts with
  | nil => rfl
  | cons part rest ih =>
    rw [List.map_cons, List.sum_cons, ← ih, Multiset.coe_add]
    congr 1
    simp only [Recorded.gather, Log.reports, List.flatMap_cons, List.flatMap_append]

/-- The induction is on the type, as in the definition of `complete`: the items of a list follow by
`follows_all`, and what is selected of an object is the hypothesis `hselect`. -/
theorem follows_complete (schema : Schema) (site : Site) {type : TypeRef}
    {select : String → Json → Path → Fiber (σ × List Report) Completion}
    {selectRecorded : String → Json → Path → Fiber σ (Recorded Completion)}
    (hselect : ∀ object path, FollowsRecord (select type.underlying object path)
      (selectRecorded type.underlying object path)) (value : Json) (path : Path) :
    FollowsRecord (complete schema site select type value path)
      (completeRecorded schema site selectRecorded type value path) := by
  induction type generalizing value path with
  | named name nullable =>
    cases value with
    | null => cases nullable <;> exact followsRecord_done _
    | object members =>
      simp only [complete, completeRecorded]
      split
      · exact followsRecord_done _
      · exact (hselect _ path).map (fun _ => rfl) fun _ => rfl
    | _ =>
      simp only [complete, completeRecorded]
      split <;> exact followsRecord_done _
  | list item nullable ih =>
    cases value with
    | null => cases nullable <;> exact followsRecord_done _
    | array items =>
      rw [complete, completeItems_eq_map, completeRecorded]
      exact followsRecord_gather (Fiber.follows_all fun part _ => ih hselect part.1 _) _
    | _ => exact followsRecord_done _

/-- The induction is on what is selected of the field. The inquiry for it follows by
`follows_inquire`, and what is asked of the objects in its value by the hypotheses of the
induction. -/
theorem follows_field (executor : Executor σ) {asked : PlannedField} {type : String}
    (h : asked.Throughout executor.AsksWatched type) (parent : Json) (path : Path) :
    FollowsRecord (executor.watched.field type parent path asked)
      (executor.fieldRecorded type parent path asked) := by
  induction asked using PlannedField.induction generalizing type parent path with
  | step asked ih =>
    have hselect : ∀ object path,
        FollowsRecord (executor.watched.object asked.fields asked.type.underlying object path)
          (executor.objectRecorded asked.fields asked.type.underlying object path) := by
      intro object path
      exact followsRecord_gather (Fiber.follows_all fun below hmem =>
        ih below hmem (h.descend below hmem) object path) _
    rw [field_eq, fieldRecorded_eq]
    split
    · exact followsRecord_done _
    · next hname =>
      let here := path ++ [.field asked.output]
      have hinquire := follows_inquire (h.here.resolve_left hname) parent here
      refine fun p => (hinquire p).bind fun outcome q => ?_
      cases outcome with
      | error fault => exact .done rfl (by simp [Log.reports, here])
      | ok value =>
        have hcomplete := (follows_complete executor.schema ⟨type, asked.name, asked.position⟩
          hselect value here q).add
          (Inquiry.reports ⟨type, parent, here, asked⟩ (.ok value))
        rw [add_zero] at hcomplete
        exact hcomplete.map_right (fun _ => rfl) fun _ => (Multiset.coe_add _ _).symm

/-- The bridge from accepted plans: what is `Declared` is in `Schema.fields` and therefore
watched. -/
theorem asksWatched_of_declared {executor : Executor σ} {container : String} {field : PlannedField}
    (h : Declared executor.schema container field) : executor.AsksWatched container field := by
  by_cases hname : field.name = PlannedField.typename
  · exact .inl hname
  · obtain ⟨definition, hdefinition, -⟩ := h.exists_definition hname
    exact .inr (Schema.mem_fields hdefinition)

theorem follows_execute (executor : Executor σ) {plan : Plan}
    (h : ∀ field ∈ plan.fields, field.Throughout executor.AsksWatched
      ((executor.schema.root? plan.kind).getD "")) :
    FollowsRecord (executor.watched.execute plan) (executor.executeRecorded plan) := by
  have hfields := fun field hmem => follows_field executor (h field hmem) (.object []) []
  rw [execute, executeRecorded, fields_eq_map, fieldsRecorded_eq_map]
  -- in turns or one after the other
  cases hkind : plan.kind <;> rw [hkind] at hfields
  case mutation => exact followsRecord_gather (Fiber.follows_sequence hfields) _
  all_goals exact followsRecord_gather (Fiber.follows_all hfields) _

/-- Watching does not change how a plan is executed: the response and the first part of the state
are those of the executor itself. What has been reported in the end are two reports for each inquiry
in the record, with its call and its outcome, and nothing else. -/
theorem run_watched (executor : Executor σ) {plan : Plan}
    (h : ∀ field ∈ plan.fields, field.Throughout executor.AsksWatched
      ((executor.schema.root? plan.kind).getD "")) (state : σ) :
    let run := (executor.execute plan).run state
    ∃ reports, (executor.watched.execute plan).run (state, []) = (run.1, run.2, reports) ∧
      reports.Perm ((executor.executeRecorded plan).run state).1.log.reports := by
  obtain ⟨hresult, hstate, htold⟩ := (follows_execute executor h (state, [])).run
  rw [run_executeRecorded]
  refine ⟨_, Prod.ext hresult (Prod.ext hstate rfl), Multiset.coe_eq_coe.mp ?_⟩
  rw [add_zero, Multiset.coe_nil, zero_add] at htold
  exact htold

end Executor

end FeedGraph
