import Mathlib.Algebra.Order.BigOperators.Group.List
import Mathlib.Algebra.Order.Group.Nat
import Mathlib.Data.List.Sort
import FeedGraph.Proofs.Execution.Mutations
import FeedGraph.Proofs.Execution.Rounds
import FeedGraph.Proofs.Execution.Tallies

/-!
# Journals: entries that are made in turns

A journal is a part of the state to which entries are added. `Fiber.Appends` says that a fiber waits
for so many rounds, then adds one entry, and ends with the journal as it is then.

When such fibers take turns, no entry is lost and none is made twice: the journal gets the entries
in the order of the rounds, and in the order of the fibers where rounds are equal, and each fiber
ends with the journal up to its own entry (`Fiber.run_appends`). The invariant is about the rounds
(`Fiber.Stage`): before a round, the journal has the entries of earlier rounds, and the fibers
without one wait for what is left of theirs.

The main statement is `Executor.execute_appends`, about a query whose fields are all of this kind.
-/

namespace FeedGraph

/-! ## In the order of rounds -/

namespace Rounds

variable {ι : Type}

/-- A list in which the items with `p` all stand before those without is these two filters, one
after the other. This is how a sorted list is cut at a round: below, `p` is that the round of an
item is less than a given one. -/
theorem filter_append_filter {p : ι → Bool} {items : List ι}
    (h : items.Pairwise fun a b => p b = true → p a = true) :
    items.filter p ++ items.filter (!p ·) = items := by
  induction h with
  | nil => rfl
  | @cons a rest hfirst _ ih =>
    cases hp : p a with
    | true => simp [hp, ih]
    | false =>
      have hnone : rest.filter p = [] := by
        refine List.filter_eq_nil_iff.mpr fun b hb hpb => ?_
        rw [hfirst b hb hpb] at hp
        cases hp
      rw [hnone, List.nil_append] at ih
      simp [hp, hnone, ih]

variable (rounds : ι → Nat)

/-- Items in the order of their rounds. As `List.mergeSort` is stable, those with equal rounds keep
their order, which is the order in which `Fiber.all` advances them. -/
def sorted (items : List ι) : List ι := items.mergeSort fun a b => decide (rounds a ≤ rounds b)

theorem trans (a b c : ι) (hab : decide (rounds a ≤ rounds b) = true)
    (hbc : decide (rounds b ≤ rounds c) = true) : decide (rounds a ≤ rounds c) = true := by
  simp only [decide_eq_true_eq] at *
  exact hab.trans hbc

theorem total (a b : ι) :
    (decide (rounds a ≤ rounds b) || decide (rounds b ≤ rounds a)) = true := by
  simpa using Nat.le_total (rounds a) (rounds b)

theorem pairwise_sorted (items : List ι) :
    (sorted rounds items).Pairwise fun a b => rounds a ≤ rounds b :=
  (List.pairwise_mergeSort (trans rounds) (total rounds) items).imp of_decide_eq_true

/-- Sorting does not reorder the items of one round: in the filter all rounds are equal, so that it
is a sorted sublist of the items, and a stable sort keeps such sublists. -/
theorem filter_sorted (items : List ι) (n : Nat) :
    (sorted rounds items).filter (rounds · = n) = items.filter (rounds · = n) := by
  have hordered : (items.filter (rounds · = n)).Pairwise
      fun a b => decide (rounds a ≤ rounds b) = true := by
    refine List.pairwise_of_forall_mem_list fun a ha b hb => ?_
    simp only [List.mem_filter, decide_eq_true_eq] at ha hb
    simp [ha.2, hb.2]
  -- by themselves they are in order, so that sorting keeps them as they are among the others
  have hsublist := (List.sublist_mergeSort (trans rounds) (total rounds) hordered
    List.filter_sublist).filter (rounds · = n)
  rw [List.filter_filter] at hsublist
  simp only [Bool.and_self] at hsublist
  have hperm := (List.mergeSort_perm items fun a b => decide (rounds a ≤ rounds b)).filter
    (rounds · = n)
  exact (hsublist.eq_of_length hperm.length_eq.symm).symm

/-- The items of the rounds before round `n`, as they stand in the order. Their entries are in the
journal when round `n` begins. -/
def early (n : Nat) (items : List ι) : List ι := (sorted rounds items).filter (rounds · < n)

/-- From `early n` to `early (n + 1)`: the items of round `n` are added behind those before it, in
the order that they have among the given items (`filter_sorted`). -/
theorem early_succ (n : Nat) (items : List ι) :
    early rounds (n + 1) items = early rounds n items ++ items.filter (rounds · = n) := by
  have hsplit := filter_append_filter (p := (rounds · < n))
    (((pairwise_sorted rounds items).filter (rounds · < n + 1)).imp fun hle hlt => by
      simp only [decide_eq_true_eq] at *
      omega)
  rw [List.filter_filter, List.filter_filter] at hsplit
  rw [← filter_sorted, early, early, ← hsplit]
  congr 1 <;> refine List.filter_congr fun a _ => ?_
  · rw [Bool.eq_iff_iff]
    simp
    omega
  · rw [Bool.eq_iff_iff]
    simp
    omega

theorem exists_late (n : Nat) (items : List ι) :
    ∃ late, sorted rounds items = early rounds n items ++ late := by
  refine ⟨_, (filter_append_filter ?_).symm⟩
  exact (pairwise_sorted rounds items).imp fun hle hlt => by
    simp only [decide_eq_true_eq] at *
    omega

theorem early_of_lt {n : Nat} {items : List ι} (h : ∀ item ∈ items, rounds item < n) :
    early rounds n items = sorted rounds items := by
  refine List.filter_eq_self.mpr fun item hmem => ?_
  simpa using h item (List.mem_mergeSort.mp hmem)

end Rounds

/-! ## Fibers that add an entry -/

namespace Fiber

variable {σ α β : Type} {journal : σ → List Json}

/-- A fiber that waits for so many rounds and then, in one turn, adds an entry to the `journal` in
the state and ends. Its result is a function of the journal as this turn leaves it, so that it shows
which entries were made before. While it waits it may change the rest of the state, but not the
journal; nothing is asked of a state that others have changed in between. -/
def Appends (journal : σ → List Json) (entry : Json) (result : List Json → α) :
    Nat → Fiber σ α → Prop
  | 0, fiber => ∀ s, ∃ last, fiber.advance s = (.done (result (journal last)), last) ∧
      journal last = journal s ++ [entry]
  | rounds + 1, fiber => ∀ s, ∃ left next, fiber.advance s = (left, next) ∧
      journal next = journal s ∧ Appends journal entry result rounds left

theorem Appends.map {entry : Json} {result : List Json → α} {rounds : Nat} {fiber : Fiber σ α}
    (h : Appends journal entry result rounds fiber) (f : α → β) :
    Appends journal entry (fun entries => f (result entries)) rounds (fiber.map f) := by
  induction rounds generalizing fiber with
  | zero =>
    intro s
    obtain ⟨last, hadvance, hlast⟩ := h s
    exact ⟨last, by rw [advance_map, hadvance, map_done], hlast⟩
  | succ rounds ih =>
    intro s
    obtain ⟨left, next, hadvance, hnext, hleft⟩ := h s
    exact ⟨left.map f, next, by rw [advance_map, hadvance], hnext, ih hleft⟩

section

variable {ι : Type} (rounds : ι → Nat) (entry : ι → Json) (result : ι → List Json → α)

/-- What is to be known of the result `a` for an item when all is over: in the order of the rounds
there are items `before` the item, and `a` comes of the journal that consists of the `base`, their
entries and the entry of the item itself. -/
def Placed (base : List Json) (items : List ι) (item : ι) (a : α) : Prop :=
  ∃ before after, Rounds.sorted rounds items = before ++ item :: after ∧
    a = result item (base ++ (before ++ [item]).map entry)

/-- The invariant: the fiber for an item before round `n`. If the round of the item is over, the
fiber is done and its result is `Placed`; if not, it `Appends` after as many rounds as are left of
its own. -/
def Stage (journal : σ → List Json) (base : List Json) (items : List ι) (n : Nat) (item : ι)
    (fiber : Fiber σ α) : Prop :=
  (rounds item < n ∧ ∃ a, fiber = .done a ∧ Placed rounds entry result base items item a) ∨
    ∃ left, rounds item = n + left ∧ fiber.Appends journal (entry item) (result item) left

variable {rounds entry result}

/-- One round keeps `Stage`. The induction is on the fibers that are still to be advanced in it:
`before` are the items whose entries are in the journal by then, in earlier rounds or earlier in
this one, and the hypothesis on the order says that the items of this round among the remaining
fibers come next. -/
theorem stage_advanceAll {base : List Json} {items : List ι} {n : Nat} {part : List ι}
    {fibers : List (Fiber σ α)}
    (h : List.Forall₂ (Stage rounds entry result journal base items n) part fibers)
    {before after : List ι}
    (horder : Rounds.sorted rounds items = before ++ part.filter (rounds · = n) ++ after) {s : σ}
    (hs : journal s = base ++ before.map entry) :
    List.Forall₂ (Stage rounds entry result journal base items (n + 1)) part
        (advanceAll fibers s).1 ∧
      journal (advanceAll fibers s).2 =
        base ++ (before ++ part.filter (rounds · = n)).map entry := by
  induction h generalizing before s with
  | nil => exact ⟨.nil, by simpa [advanceAll] using hs⟩
  | @cons item fiber part fibers hitem _ ih =>
    rw [advanceAll_cons]
    rcases hitem with ⟨hover, a, rfl, hplaced⟩ | ⟨left, hrounds, happends⟩
    · -- it has ended in an earlier round
      have hne : ¬rounds item = n := Nat.ne_of_lt hover
      simp only [List.filter_cons, hne, decide_false, Bool.false_eq_true, if_false] at horder ⊢
      obtain ⟨hrest, hlast⟩ := ih horder hs
      exact ⟨.cons (.inl ⟨Nat.lt_succ_of_lt hover, a, rfl, hplaced⟩) hrest, hlast⟩
    · cases left with
      | zero =>
        obtain ⟨last, hadvance, hlast⟩ := happends s
        have hn : rounds item = n := hrounds
        simp only [List.filter_cons, hn, decide_true, if_true] at horder ⊢
        rw [hs, List.append_assoc, ← List.map_singleton, ← List.map_append] at hlast
        have hplaced : Placed rounds entry result base items item (result item (journal last)) :=
          ⟨before, _, by rw [horder, List.append_assoc, List.cons_append], by rw [hlast]⟩
        rw [List.append_cons] at horder ⊢
        obtain ⟨hrest, hlast'⟩ := ih horder hlast
        rw [hadvance]
        exact ⟨.cons (.inl ⟨by omega, _, rfl, hplaced⟩) hrest, hlast'⟩
      | succ left =>
        obtain ⟨rest, next, hadvance, hnext, hleft⟩ := happends s
        have hne : ¬rounds item = n := by omega
        simp only [List.filter_cons, hne, decide_false, Bool.false_eq_true, if_false] at horder ⊢
        obtain ⟨hrest, hlast⟩ := ih horder (hnext.trans hs)
        rw [hadvance]
        exact ⟨.cons (.inr ⟨left, by omega, hleft⟩) hrest, hlast⟩

/-- If results are `Placed` for a function after `f`, then they are `f` of results that are `Placed`
for the function itself. It takes the completions that fields end with to the values that a journal
gives them. -/
theorem exists_placed {f : α → β} {base : List Json} {items part : List ι} {results : List β}
    (h : List.Forall₂
      (Placed rounds entry (fun item entries => f (result item entries)) base items) part results) :
    ∃ others, results = others.map f ∧
      List.Forall₂ (Placed rounds entry result base items) part others := by
  induction h with
  | nil => exact ⟨[], rfl, .nil⟩
  | cons hitem _ ih =>
    obtain ⟨before, after, horder, rfl⟩ := hitem
    obtain ⟨others, rfl, hothers⟩ := ih
    exact ⟨_ :: others, rfl, .cons ⟨before, after, horder, rfl⟩ hothers⟩

theorem exists_results {base : List Json} {items : List ι} {n : Nat} {part : List ι}
    {fibers : List (Fiber σ α)}
    (h : List.Forall₂ (Stage rounds entry result journal base items n) part fibers)
    (hover : ∀ item ∈ part, rounds item < n) :
    ∃ results, fibers = results.map .done ∧
      List.Forall₂ (Placed rounds entry result base items) part results := by
  induction h with
  | nil => exact ⟨[], rfl, .nil⟩
  | @cons item fiber part fibers hitem _ ih =>
    obtain ⟨hitem', hpart⟩ := List.forall_mem_cons.mp hover
    obtain ⟨results, rfl, hresults⟩ := ih hpart
    rcases hitem with ⟨-, a, rfl, hplaced⟩ | ⟨left, hrounds, -⟩
    · exact ⟨a :: results, rfl, .cons hplaced hresults⟩
    · omega

/-- From round to round by `stage_advanceAll`, until no round is left. What the journal holds
between two rounds are the entries of `Rounds.early`. -/
theorem run_stage {base : List Json} {items : List ι} {n more : Nat}
    (hbound : ∀ item ∈ items, rounds item < n + more) {fibers : List (Fiber σ α)}
    (h : List.Forall₂ (Stage rounds entry result journal base items n) items fibers) {s : σ}
    (hs : journal s = base ++ (Rounds.early rounds n items).map entry) :
    List.Forall₂ (Placed rounds entry result base items) items ((all fibers).run s).1 ∧
      journal ((all fibers).run s).2 = base ++ (Rounds.sorted rounds items).map entry := by
  induction more generalizing n fibers s with
  | zero =>
    obtain ⟨results, rfl, hresults⟩ := exists_results h hbound
    rw [all_done, run_done]
    exact ⟨hresults, by rw [hs, Rounds.early_of_lt (n := n) rounds hbound]⟩
  | succ more ih =>
    obtain ⟨late, hlate⟩ := Rounds.exists_late rounds (n + 1) items
    rw [Rounds.early_succ] at hlate
    obtain ⟨hstage, hnext⟩ := stage_advanceAll h hlate hs
    rw [run_advanceAll]
    refine ih (fun item hmem => ?_) hstage ?_
    · have := hbound item hmem
      omega
    · rw [hnext, Rounds.early_succ]

/-- Fibers that take turns, each of which adds its entry after the rounds of its item: the journal
gets every entry once, in the order of the rounds, and each result comes of the journal up to its
own entry. Nothing is asked of the number of fibers or of how many rounds they wait. -/
theorem run_appends {items : List ι} {fiber : ι → Fiber σ α}
    (h : ∀ item ∈ items, (fiber item).Appends journal (entry item) (result item) (rounds item))
    (s : σ) :
    List.Forall₂ (Placed rounds entry result (journal s) items) items
        ((all (items.map fiber)).run s).1 ∧
      journal ((all (items.map fiber)).run s).2 =
        journal s ++ (Rounds.sorted rounds items).map entry := by
  have hbound : ∀ item ∈ items, rounds item < 0 + ((items.map rounds).sum + 1) := by
    intro item hmem
    have := List.le_sum_of_mem (List.mem_map_of_mem (f := rounds) hmem)
    omega
  have hstage : List.Forall₂ (Stage rounds entry result journal (journal s) items 0) items
      (items.map fiber) := by
    rw [List.forall₂_map_right_iff, List.forall₂_same]
    exact fun item hmem => .inr ⟨rounds item, (Nat.zero_add _).symm, h item hmem⟩
  exact run_stage hbound hstage (by simp [Rounds.early])

end

/-- `Fiber.delay` puts rounds before a fiber that adds its entry at once. -/
theorem appends_delay {entry : Json} {result : List Json → α} {fiber : Fiber σ α}
    (h : Appends journal entry result 0 fiber) (rounds : Nat) :
    Appends journal entry result rounds (delay rounds fiber) := by
  induction rounds with
  | zero => exact h
  | succ rounds ih => exact fun s => ⟨delay rounds fiber, s, rfl, rfl, ih⟩

end Fiber

/-! ## Queries that add entries -/

/-- If all completions are values, then no null spreads and there is nothing to report: the data has
the output names with the values. -/
theorem Response.ofCompletions_values {selected : List PlannedField} {values : List Json}
    (hnames : (selected.map PlannedField.output).Nodup)
    (hlength : selected.length = values.length) :
    ofCompletions selected (values.map .value) =
      ⟨some (.object ((selected.map PlannedField.output).zip values)), []⟩ := by
  have hmapM : (values.map Completion.value).mapM Completion.value? = some values := by
    simpa using Completion.mapM_values id values
  have hfailures : Completion.allFailures (values.map Completion.value) = [] :=
    Completion.allFailures_values id values
  have hzip : Members.names ((selected.map PlannedField.output).zip values) =
      selected.map PlannedField.output :=
    List.map_fst_zip (by simp [hlength])
  rw [ofCompletions, Completion.object, hmapM, hfailures, Option.map_some,
    Members.ofPairs_of_nodup (by rw [hzip]; exact hnames)]
  rfl

namespace Executor

variable {σ : Type}

/-- What is asked of a field so that a query of such fields makes a journal: the inquiry for it adds
`entry field` after `rounds field` rounds and answers with the journal, and this is the value of the
field, as nothing is selected of it. -/
structure Appends (executor : Executor σ) (journal : σ → List Json) (type : String)
    (entry : PlannedField → Json) (rounds : PlannedField → Nat) (field : PlannedField) : Prop where
  /-- it is not the name of the type -/
  name_ne : field.name ≠ PlannedField.typename
  /-- its values have no parts -/
  leaf : ∃ name nullable, field.type = .named name nullable ∧ executor.schema.isLeaf name = true
  /-- its resolver adds an entry -/
  inquire : (executor.inquire type (.object []) field).Appends journal (entry field)
    (fun entries => .ok (.array entries)) (rounds field)

/-- The completion of a leaf asks for nothing, so that its fiber is done from the start and ends
with what `Evaluation.complete` says. -/
theorem complete_leaf {schema : Schema} {name : String} (hleaf : schema.isLeaf name = true)
    (site : Site) (select : String → Json → Path → Fiber σ Completion)
    (selected : String → Json → Path → Completion) (nullable : Bool) (value : Json) (path : Path) :
    complete schema site select (.named name nullable) value path =
      .done (Evaluation.complete schema site selected (.named name nullable) value path) := by
  cases value with
  | null => cases nullable <;> rfl
  | _ => simp [complete, Evaluation.complete, hleaf]

/-- What becomes of the outcome for a leaf: the completion of its value, or the failure where the
fault stops. -/
def leafCompletion (schema : Schema) (site : Site) (type : TypeRef) (path : Path) :
    Outcome → Completion
  | .ok value => Evaluation.complete schema site (fun _ _ _ => .value .null) type value path
  | .error fault => (Completion.failed ⟨.fault fault, site.position, path⟩).absorb type.nullable

/-- The fiber for a field that is a leaf is the inquiry for it, with the outcome completed; a value
other than null is completed to itself. -/
theorem exists_map_inquire (executor : Executor σ) {asked : PlannedField} {name : String}
    {nullable : Bool} (hname : asked.name ≠ PlannedField.typename)
    (htype : asked.type = .named name nullable) (hleaf : executor.schema.isLeaf name = true)
    (type : String) (parent : Json) (path : Path) :
    ∃ completion : Outcome → Completion,
      (∀ value, value ≠ .null → completion (.ok value) = .value value) ∧
        executor.field type parent path asked =
          (executor.inquire type parent asked).map completion := by
  let here := path ++ [.field asked.output]
  let site : Site := ⟨type, asked.name, asked.position⟩
  refine ⟨leafCompletion executor.schema site (.named name nullable) here,
    fun value hvalue => Evaluation.complete_leaf hvalue hleaf, ?_⟩
  rw [field_eq, if_neg hname, inquire, Fiber.map_read]
  simp only [Fiber.map_write]
  congr 1
  funext state
  congr 1
  refine congrArg _ (funext fun outcome => ?_)
  cases outcome with
  | ok value =>
    rw [settle, htype]
    exact complete_leaf hleaf site _ _ nullable value here
  | error fault =>
    rw [settle, htype]
    rfl

/-- By `exists_map_inquire` the fiber for such a field appends when its inquiry does, and the
journal that is the outcome is also the value of the field. -/
theorem Appends.field {executor : Executor σ} {journal : σ → List Json} {type : String}
    {entry : PlannedField → Json} {rounds : PlannedField → Nat} {field : PlannedField}
    (h : executor.Appends journal type entry rounds field) :
    (executor.field type (.object []) [] field).Appends journal (entry field)
      (fun entries => .value (.array entries)) (rounds field) := by
  obtain ⟨name, nullable, htype, hleaf⟩ := h.leaf
  obtain ⟨completion, hvalue, hfield⟩ :=
    executor.exists_map_inquire h.name_ne htype hleaf type (.object []) []
  have hcompletion : (fun entries : List Json => completion (.ok (.array entries))) =
      fun entries => .value (.array entries) := by
    funext entries
    exact hvalue (.array entries) nofun
  rw [hfield, ← hcompletion]
  exact h.inquire.map completion

/-- Fields that each add an entry to a journal, in an accepted query. The journal that is left has
the entries of all fields behind those it had, sorted by the rounds of the fields and stably so. The
data has the fields in the order in which they are selected, whatever the rounds are; the value of
each is the journal up to its own entry. There are no errors. -/
theorem execute_appends (executor : Executor σ) {document : Document}
    {operationName? : Option String} {supplied : Members Json} {depthLimit : Nat} {plan : Plan}
    (h : Plan.ofDocument executor.schema document operationName? supplied depthLimit = .ok plan)
    (hkind : plan.kind = .query) {root : String} (hroot : executor.schema.root? .query = some root)
    {journal : σ → List Json} {entry : PlannedField → Json} {rounds : PlannedField → Nat}
    (happends : ∀ field ∈ plan.fields, executor.Appends journal root entry rounds field)
    (state : σ) :
    let run := (executor.execute plan).run state
    let order := plan.fields.mergeSort fun first second => decide (rounds first ≤ rounds second)
    journal run.2 = journal state ++ order.map entry ∧ run.1.errors = [] ∧
      ∃ values, run.1.data? =
          some (.object ((plan.fields.map PlannedField.output).zip values)) ∧
        List.Forall₂ (fun field value => ∃ before after, order = before ++ field :: after ∧
          value = .array (journal state ++ (before ++ [field]).map entry)) plan.fields values := by
  obtain ⟨hplaced, hlast⟩ := Fiber.run_appends (fun field hmem => (happends field hmem).field) state
  have hexecute : executor.execute plan =
      (Fiber.all (plan.fields.map (executor.field root (.object []) []))).map
        (Response.ofCompletions plan.fields) := by
    rw [execute, hkind, hroot, fields_eq_map]
    rfl
  obtain ⟨_, _, hdistinct, -⟩ := Plan.declared_ofDocument h
  obtain ⟨values, hvalues, hplaced⟩ := Fiber.exists_placed hplaced
  rw [hexecute, Fiber.run_map, hvalues,
    Response.ofCompletions_values hdistinct.nodup hplaced.length_eq]
  exact ⟨hlast, rfl, values, rfl, hplaced⟩

end Executor

/-! ## A guest book -/

/-- A resolver that adds an entry, after some rounds, and answers with all entries. The state is
nothing but the journal. -/
def Resolver.adding (entry : Members Value → Json) (rounds : Members Value → Nat) :
    Resolver (List Json) :=
  fun _ arguments entries =>
    let add (entries : List Json) : Outcome × List Json :=
      (.ok (.array (entries ++ [entry arguments])), entries ++ [entry arguments])
    match rounds arguments with
    | 0 => (.ready (add entries).1, (add entries).2)
    | rounds + 1 => (.deferred (.delay (rounds + 1) (.step add)), entries)

/-- `Resolver.adding` appends: it waits with `Fiber.delay`, and reads and writes the state in one
turn. -/
theorem Executor.appends_adding {executor : Executor (List Json)} {type : String}
    {field : PlannedField} {entry : Members Value → Json} {rounds : Members Value → Nat}
    (h : executor.resolvers.get? type field.name = some (.adding entry rounds)) (parent : Json) :
    (executor.inquire type parent field).Appends id (entry field.arguments)
      (fun entries => .ok (.array entries)) (rounds field.arguments) := by
  have hresolve : ∀ entries, executor.resolvers.resolve type field.name parent field.arguments
      entries = Resolver.adding entry rounds parent field.arguments entries := by
    intro entries
    rw [ResolverTable.resolve, h]
  let add (entries : List Json) : Outcome × List Json :=
    (.ok (.array (entries ++ [entry field.arguments])), entries ++ [entry field.arguments])
  cases hrounds : rounds field.arguments with
  | zero =>
    intro entries
    refine ⟨(add entries).2, ?_, rfl⟩
    simp only [inquire, Fiber.advance, hresolve, Resolver.adding, hrounds]
    rfl
  | succ rest =>
    intro entries
    refine ⟨.delay rest (.step add), entries, ?_, rfl, ?_⟩
    · simp only [inquire, Fiber.advance, hresolve, Resolver.adding, hrounds]
      rfl
    · exact Fiber.appends_delay (fun found => ⟨(add found).2, rfl, rfl⟩) rest

namespace Guestbook

/-- The schema of a guest book: guests sign, and are shown who has signed. -/
def schema : Schema :=
  { Schema.initial with
    types := Schema.initial.types ++
      [⟨"Guests", none, .scalar⟩,
        ⟨"Query", none, .object [⟨"sign", .named "Guests" false, none,
          [⟨"name", .named "String" false, none⟩, ⟨"after", .named "Int" false, none⟩]⟩]⟩] }

/-- The name that is signed. -/
def signature (arguments : Members Value) : Json :=
  ((Members.get? arguments "name").map Value.toJson).getD .null

/-- The rounds it takes. -/
def rounds (arguments : Members Value) : Nat :=
  (((Members.get? arguments "after").bind Value.int64?).map (·.toInt.toNat)).getD 0

/-- Who signs is added to the guests. -/
def executor : Executor (List Json) where
  schema := schema
  resolvers := ResolverTable.empty.register "Query" "sign" (.adding signature rounds)

/-- A guest signs, which takes so many rounds. -/
def signing (output name : String) (rounds line : Nat) : Selection :=
  .field (some output) "sign"
    [⟨"name", .string name, ⟨line, 3⟩⟩, ⟨"after", .number (.ofNat rounds), ⟨line, 9⟩⟩] [] ⟨line, 1⟩

/-- A guest who takes two rounds, one who signs at once, and two who take one round. -/
def document : Document where
  operations := .anonymous ⟨.query, [],
    [signing "a" "Ada" 2 1, signing "b" "Bo" 0 2, signing "c" "Cy" 1 3, signing "d" "Di" 1 4],
    ⟨1, 1⟩⟩
  fragments := []

def plan : Plan :=
  ⟨none, .query,
    [⟨some "a", "sign", .named "Guests" false,
        [("name", .string "Ada"), ("after", .number (.int64 2))], [], ⟨1, 1⟩⟩,
      ⟨some "b", "sign", .named "Guests" false,
        [("name", .string "Bo"), ("after", .number (.int64 0))], [], ⟨2, 1⟩⟩,
      ⟨some "c", "sign", .named "Guests" false,
        [("name", .string "Cy"), ("after", .number (.int64 1))], [], ⟨3, 1⟩⟩,
      ⟨some "d", "sign", .named "Guests" false,
        [("name", .string "Di"), ("after", .number (.int64 1))], [], ⟨4, 1⟩⟩]⟩

theorem ofDocument_eq : Plan.ofDocument schema document none [] 16 = .ok plan := by
  with_unfolding_all rfl

theorem appends_sign : ∀ field ∈ plan.fields, executor.Appends id "Query"
    (fun field => signature field.arguments) (fun field => rounds field.arguments) field := by
  have hsign : ∀ field : PlannedField, field.name = "sign" → field.type = .named "Guests" false →
      executor.Appends id "Query" (fun field => signature field.arguments)
        (fun field => rounds field.arguments) field := by
    intro field hname htype
    refine ⟨by rw [hname]; decide, ⟨"Guests", false, htype, by rfl⟩, ?_⟩
    apply Executor.appends_adding
    rw [hname]
    exact ResolverTable.get?_register_self ..
  intro field hmem
  simp only [plan, List.mem_cons, List.not_mem_nil, or_false] at hmem
  rcases hmem with rfl | rfl | rfl | rfl <;> exact hsign _ rfl rfl

/-- The book has every guest once, and each guest sees who has signed so far. -/
theorem plan_appends :
    Plan.ofDocument executor.schema document none [] 16 = .ok plan ∧ plan.kind = .query ∧
    executor.schema.root? .query = some "Query" ∧
    (∀ field ∈ plan.fields, executor.Appends id "Query"
      (fun field => signature field.arguments) (fun field => rounds field.arguments) field) ∧
    let run := (executor.execute plan).run [.string "Eve"]
    let order := plan.fields.mergeSort fun first second =>
      decide (rounds first.arguments ≤ rounds second.arguments)
    run.2 = [.string "Eve"] ++ order.map (fun field => signature field.arguments) ∧
      run.1.errors = [] ∧
      ∃ values, run.1.data? =
          some (.object ((plan.fields.map PlannedField.output).zip values)) ∧
        List.Forall₂ (fun field value => ∃ before after, order = before ++ field :: after ∧
          value = .array ([.string "Eve"] ++
            (before ++ [field]).map fun field => signature field.arguments)) plan.fields values :=
  ⟨ofDocument_eq, rfl, by rfl, appends_sign,
    Executor.execute_appends executor ofDocument_eq rfl (by rfl) appends_sign [.string "Eve"]⟩

/-- The one who takes two rounds is the last in the book and the first in the response. -/
example : (executor.execute plan).run [] =
    (⟨some (.object [
      ("a", .array [.string "Bo", .string "Cy", .string "Di", .string "Ada"]),
      ("b", .array [.string "Bo"]), ("c", .array [.string "Bo", .string "Cy"]),
      ("d", .array [.string "Bo", .string "Cy", .string "Di"])]), []⟩,
    [.string "Bo", .string "Cy", .string "Di", .string "Ada"]) := by
  rfl

end Guestbook

end FeedGraph
