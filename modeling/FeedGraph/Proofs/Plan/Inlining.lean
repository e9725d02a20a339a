import Mathlib.Data.List.Nodup
import Mathlib.Data.List.Perm.Subperm
import Mathlib.Logic.Relation
import FeedGraph.Proofs.Plan.Typing

/-!
# Inlining: fragments as abbreviations

A fragment stands for what it selects. `Inlined` describes the selections that are left when every
use of a fragment is replaced by its selections, over and over, and `Expandable` the selections of
which that is possible: the fragments that they lead to are defined, are not empty and do not lead
to themselves.

The main statement is `Plan.ofDocument_inlined`: a document and its inlined form are planned alike,
with the same places and the same counts, or rejected for the same reason. There is one exception,
because the inlined form has forgotten which types its fragments are for: the document itself may be
rejected for a fragment on another type.

`Checker.expand` never writes out the inlined form. It carries the fragments that it is inside of,
and a number of steps. `Entered` says what these two know about the selections that are left:
everything on the path leads to them, so that a fragment that is on the path already would lead to
itself, and there are as many steps as fragments that are not on the path.
-/

namespace FeedGraph

open Relation

/-! ## What selections lead to -/

namespace Selection

mutual

/-- The fragments that a selection uses, at any depth. Fragments are not entered; that is
`Reached`. -/
def uses : Selection → List String
  | .field _ _ _ selections _ => usesAll selections
  | .spread fragment _ => [fragment]
  | .inline selections _ => usesAll selections

def usesAll : List Selection → List String
  | [] => []
  | selection :: rest => selection.uses ++ usesAll rest

end

mutual

/-- Whether a selection has no selections in place, at any depth. Writing out is about named
fragments, and selections in place are rejected anyway. -/
def plain : Selection → Bool
  | .field _ _ _ selections _ => plainAll selections
  | .spread _ _ => true
  | .inline _ _ => false

def plainAll : List Selection → Bool
  | [] => true
  | selection :: rest => selection.plain && plainAll rest

end

end Selection

/-- A fragment uses another, by the first definition of its name, which is the one that counts. -/
def Uses (fragments : List Fragment) (name used : String) : Prop :=
  ∃ fragment, fragments.find? (·.name = name) = some fragment ∧
    used ∈ Selection.usesAll fragment.selections

/-- Selections lead to a fragment: they use it, or they use one that leads to it. -/
def Reached (fragments : List Fragment) (selections : List Selection) (name : String) : Prop :=
  ∃ used ∈ Selection.usesAll selections, ReflTransGen (Uses fragments) used name

/-- Selections that can be written out: all fragments that they lead to are defined, are not empty
and do not lead back to themselves, and nothing is selected in place. -/
structure Expandable (fragments : List Fragment) (selections : List Selection) : Prop where
  /-- they select nothing in place -/
  plain : Selection.plainAll selections = true
  /-- fragments are defined and select something, but nothing in place -/
  defined : ∀ name, Reached fragments selections name →
    ∃ fragment, fragments.find? (·.name = name) = some fragment ∧ fragment.selections ≠ [] ∧
      Selection.plainAll fragment.selections = true
  /-- fragments do not lead back to themselves -/
  acyclic : ∀ name, Reached fragments selections name → ¬ TransGen (Uses fragments) name name

/-- Selections, and what they are when every use of a fragment is replaced by the selections of the
fragment, in which every use of a fragment is replaced. As a relation it needs no bound on how deep
fragments are nested; that it relates the selections to something is `Expandable.exists_inlined`. -/
inductive Inlined (fragments : List Fragment) : List Selection → List Selection → Prop where
  /-- nothing to replace -/
  | nil : Inlined fragments [] []
  /-- in what is selected of a field -/
  | field {alias? : Option String} {name : String} {arguments : List Argument}
      {selections inlined rest others : List Selection} {place : Position} :
      Inlined fragments selections inlined → Inlined fragments rest others →
        Inlined fragments (.field alias? name arguments selections place :: rest)
          (.field alias? name arguments inlined place :: others)
  /-- the use of a fragment -/
  | spread {name : String} {place : Position} {fragment : Fragment}
      {body rest others : List Selection} :
      fragments.find? (·.name = name) = some fragment →
      Inlined fragments fragment.selections body → Inlined fragments rest others →
        Inlined fragments (.spread name place :: rest) (body ++ others)

section

variable {fragments : List Fragment} {selections : List Selection} {name : String}

theorem Reached.mono {smaller : List Selection}
    (hsub : Selection.usesAll smaller ⊆ Selection.usesAll selections)
    (h : Reached fragments smaller name) : Reached fragments selections name := by
  obtain ⟨used, hused, hpath⟩ := h
  exact ⟨used, hsub hused, hpath⟩

theorem Reached.enter {fragment : Fragment} {used : String}
    (hused : used ∈ Selection.usesAll selections)
    (hfragment : fragments.find? (·.name = used) = some fragment)
    (h : Reached fragments fragment.selections name) : Reached fragments selections name := by
  obtain ⟨next, hnext, hpath⟩ := h
  exact ⟨used, hused, .head ⟨fragment, hfragment, hnext⟩ hpath⟩

namespace Expandable

/-- `Expandable` is about the fragments that are led to, of which a part of the selections leads to
fewer. -/
theorem part {smaller : List Selection} (h : Expandable fragments selections)
    (hplain : Selection.plainAll smaller = true)
    (hsub : Selection.usesAll smaller ⊆ Selection.usesAll selections) :
    Expandable fragments smaller where
  plain := hplain
  defined name hname := h.defined name (hname.mono hsub)
  acyclic name hname := h.acyclic name (hname.mono hsub)

theorem tail {selection : Selection} {rest : List Selection}
    (h : Expandable fragments (selection :: rest)) : Expandable fragments rest := by
  have hplain := h.plain
  rw [Selection.plainAll, Bool.and_eq_true] at hplain
  exact h.part hplain.2 fun _ hmem => List.mem_append_right _ hmem

theorem inner {alias? : Option String} {arguments : List Argument} {inside rest : List Selection}
    {place : Position}
    (h : Expandable fragments (.field alias? name arguments inside place :: rest)) :
    Expandable fragments inside := by
  have hplain := h.plain
  rw [Selection.plainAll, Bool.and_eq_true] at hplain
  exact h.part hplain.1 fun _ hmem => List.mem_append_left _ hmem

theorem find {used : String} (h : Expandable fragments selections)
    (hused : used ∈ Selection.usesAll selections) :
    ∃ fragment, fragments.find? (·.name = used) = some fragment ∧ fragment.selections ≠ [] ∧
      Selection.plainAll fragment.selections = true :=
  h.defined used ⟨used, hused, .refl⟩

/-- What a fragment that is used selects: `Reached.enter` leads from its selections back to those
that use it. -/
theorem enter {fragment : Fragment} {used : String} (h : Expandable fragments selections)
    (hused : used ∈ Selection.usesAll selections)
    (hfragment : fragments.find? (·.name = used) = some fragment) :
    Expandable fragments fragment.selections := by
  obtain ⟨found, hfound, -, hplain⟩ := h.find hused
  obtain rfl := Option.some.inj (hfound.symm.trans hfragment)
  exact ⟨hplain, fun name hname => h.defined name (hname.enter hused hfragment),
    fun name hname => h.acyclic name (hname.enter hused hfragment)⟩

theorem not_loop {used : String} (h : Expandable fragments selections)
    (hused : used ∈ Selection.usesAll selections) : ¬ TransGen (Uses fragments) used used :=
  h.acyclic used ⟨used, hused, .refl⟩

end Expandable

end

/-- A sufficient condition that can be checked for a given document: fragments that select something
are numbered so that each uses only fragments with lower numbers. -/
theorem Expandable.of_rank {fragments : List Fragment} {selections : List Selection}
    (rank : String → Nat) (hplain : Selection.plainAll selections = true)
    (hused : Selection.usesAll selections ⊆ fragments.map (·.name))
    (hfragments : ∀ fragment ∈ fragments, fragment.selections ≠ [] ∧
      Selection.plainAll fragment.selections = true ∧
      ∀ used ∈ Selection.usesAll fragment.selections,
        used ∈ fragments.map (·.name) ∧ rank used < rank fragment.name) :
    Expandable fragments selections := by
  have huses : ∀ name used, Uses fragments name used →
      used ∈ fragments.map (·.name) ∧ rank used < rank name := by
    rintro name used ⟨fragment, hfragment, hmem⟩
    have hname : fragment.name = name := by simpa using List.find?_some hfragment
    exact hname ▸ (hfragments fragment (List.mem_of_find?_eq_some hfragment)).2.2 used hmem
  refine ⟨hplain, ?_, ?_⟩
  · rintro name ⟨used, hmem, hpath⟩
    have hname : name ∈ fragments.map (·.name) := by
      rcases hpath.cases_tail with rfl | ⟨before, -, hlast⟩
      · exact hused hmem
      · exact (huses before name hlast).1
    cases hfind : fragments.find? (·.name = name) with
    | none =>
      obtain ⟨fragment, hfragment, heq⟩ := List.mem_map.mp hname
      exact absurd heq (by simpa using List.find?_eq_none.mp hfind fragment hfragment)
    | some fragment =>
      obtain ⟨hne, hplain, -⟩ := hfragments fragment (List.mem_of_find?_eq_some hfind)
      exact ⟨fragment, rfl, hne, hplain⟩
  · -- a way back to the same fragment would go down all the time
    rintro name - hloop
    have hlt : ∀ before, TransGen (Uses fragments) before name → rank name < rank before := by
      intro before hpath
      induction hpath using TransGen.head_induction_on with
      | single hstep => exact (huses _ _ hstep).2
      | head hstep _ ih => exact Nat.lt_trans ih (huses _ _ hstep).2
    exact Nat.lt_irrefl _ (hlt name hloop)

/-! ## The path into fragments -/

/-- What is known of the selections that are left when `Checker.expand` is inside the fragments on a
path and may enter so many more. The path has no repetitions and leads to what is left, and the
steps are as many as there are fragments outside of it. -/
structure Entered (fragments : List Fragment) (steps : Nat) (path : List String)
    (selections : List Selection) : Prop where
  /-- no fragment was entered inside itself -/
  nodup : path.Nodup
  /-- fragments on the path are defined -/
  defined : path ⊆ fragments.map (·.name)
  /-- no fragment on the path has used up more than its own step -/
  steps_add : steps + path.length = fragments.length
  /-- what is on the path leads to what is left -/
  leads : ∀ name ∈ path, ∀ used ∈ Selection.usesAll selections, TransGen (Uses fragments) name used

namespace Entered

variable {fragments : List Fragment} {steps : Nat} {path : List String}
  {selections : List Selection}

theorem start : Entered fragments fragments.length [] selections where
  nodup := List.nodup_nil
  defined := List.nil_subset _
  steps_add := by simp
  leads := by simp

theorem mono {smaller : List Selection} (h : Entered fragments steps path selections)
    (hsub : Selection.usesAll smaller ⊆ Selection.usesAll selections) :
    Entered fragments steps path smaller :=
  ⟨h.nodup, h.defined, h.steps_add,
    fun name hname used hused => h.leads name hname used (hsub hused)⟩

/-- A fragment that is not on the path can be put on it. That a step is left is counted: the names
on the path are different names of fragments, and with the new one they cannot be more than all. -/
theorem extend {name : String} {fragment : Fragment} {inside : List Selection}
    (h : Entered fragments steps path selections) (hnew : name ∉ path)
    (hfragment : fragments.find? (·.name = name) = some fragment)
    (hleads : ∀ before ∈ path ++ [name], ∀ used ∈ Selection.usesAll inside,
      TransGen (Uses fragments) before used) :
    ∃ rest, steps = rest + 1 ∧ Entered fragments rest (path ++ [name]) inside := by
  have hnodup : (path ++ [name]).Nodup :=
    List.nodup_append.mpr ⟨h.nodup, List.nodup_singleton name, by
      rintro a ha b hb rfl
      exact hnew (List.mem_singleton.mp hb ▸ ha)⟩
  have hdefined : path ++ [name] ⊆ fragments.map (·.name) := by
    refine List.append_subset.mpr ⟨h.defined, List.cons_subset.mpr ⟨?_, List.nil_subset _⟩⟩
    have heq : fragment.name = name := by simpa using List.find?_some hfragment
    exact heq ▸ List.mem_map_of_mem (List.mem_of_find?_eq_some hfragment)
  -- different fragments on a path are no more than there are fragments
  have hlength := (List.subperm_of_subset hnodup hdefined).length_le
  rw [List.length_append, List.length_singleton, List.length_map] at hlength
  have hsteps := h.steps_add
  refine ⟨steps - 1, by omega, hnodup, hdefined, ?_, hleads⟩
  rw [List.length_append, List.length_singleton]
  omega

theorem enter_of_new {name : String} {fragment : Fragment}
    (h : Entered fragments steps path selections) (hnew : name ∉ path)
    (hname : name ∈ Selection.usesAll selections)
    (hfragment : fragments.find? (·.name = name) = some fragment) :
    ∃ rest, steps = rest + 1 ∧ Entered fragments rest (path ++ [name]) fragment.selections := by
  refine h.extend hnew hfragment fun before hbefore used hused => ?_
  have hstep : Uses fragments name used := ⟨fragment, hfragment, hused⟩
  rcases List.mem_append.mp hbefore with hbefore | hbefore
  · exact (h.leads before hbefore name hname).tail hstep
  · rw [List.mem_singleton.mp hbefore]
    exact .single hstep

/-- A fragment that does not lead back to itself can be entered: if it were on the path, then by
`leads` it would lead to itself. So neither of the two refusals of `Checker.expand` for cycles can
happen. -/
theorem enter {name : String} {fragment : Fragment} (h : Entered fragments steps path selections)
    (hname : name ∈ Selection.usesAll selections)
    (hfragment : fragments.find? (·.name = name) = some fragment)
    (hloop : ¬ TransGen (Uses fragments) name name) :
    name ∉ path ∧ ∃ rest, steps = rest + 1 ∧
      Entered fragments rest (path ++ [name]) fragment.selections := by
  have hnew : name ∉ path := fun hmem => hloop (h.leads name hmem name hname)
  exact ⟨hnew, h.enter_of_new hnew hname hfragment⟩

end Entered

/-! ## Writing out -/

section

variable {fragments : List Fragment}

/-- Along the selections: fields are kept with what is selected of them, and uses are replaced by
what the hypothesis has for them. -/
theorem exists_inlined_of_uses :
    ∀ selections : List Selection, Selection.plainAll selections = true →
      (∀ name ∈ Selection.usesAll selections, ∃ fragment body,
        fragments.find? (·.name = name) = some fragment ∧
          Inlined fragments fragment.selections body) →
      ∃ inlined, Inlined fragments selections inlined
  | [], _, _ => ⟨[], .nil⟩
  | .field alias? name arguments selections place :: rest, hplain, hbodies => by
    rw [Selection.plainAll, Bool.and_eq_true] at hplain
    obtain ⟨inlined, hinlined⟩ := exists_inlined_of_uses selections hplain.1
      fun name hname => hbodies name (List.mem_append_left _ hname)
    obtain ⟨others, hothers⟩ := exists_inlined_of_uses rest hplain.2
      fun name hname => hbodies name (List.mem_append_right _ hname)
    exact ⟨_, .field hinlined hothers⟩
  | .spread name place :: rest, hplain, hbodies => by
    rw [Selection.plainAll, Bool.and_eq_true] at hplain
    obtain ⟨fragment, body, hfragment, hbody⟩ := hbodies name List.mem_cons_self
    obtain ⟨others, hothers⟩ := exists_inlined_of_uses rest hplain.2
      fun name hname => hbodies name (List.mem_append_right _ hname)
    exact ⟨_, .spread hfragment hbody hothers⟩
  | .inline _ _ :: rest, hplain, _ => by
    rw [Selection.plainAll, Bool.and_eq_true] at hplain
    exact absurd hplain.1 Bool.false_ne_true

/-- The induction is on the steps, which `Entered.enter` makes fewer with every fragment that is
entered. -/
theorem Entered.exists_inlined {steps : Nat} {path : List String} {selections : List Selection}
    (h : Entered fragments steps path selections) (hexp : Expandable fragments selections) :
    ∃ inlined, Inlined fragments selections inlined := by
  induction steps generalizing path selections with
  | zero =>
    -- with no steps left all fragments are on the path, so that none is used
    refine exists_inlined_of_uses selections hexp.plain fun name hname => ?_
    obtain ⟨fragment, hfragment, -⟩ := hexp.find hname
    obtain ⟨-, rest, hsteps, -⟩ := h.enter hname hfragment (hexp.not_loop hname)
    cases hsteps
  | succ steps ih =>
    refine exists_inlined_of_uses selections hexp.plain fun name hname => ?_
    obtain ⟨fragment, hfragment, -⟩ := hexp.find hname
    obtain ⟨-, rest, hsteps, hentered⟩ := h.enter hname hfragment (hexp.not_loop hname)
    obtain rfl := Nat.succ.inj hsteps
    obtain ⟨body, hbody⟩ := ih hentered (hexp.enter hname hfragment)
    exact ⟨fragment, body, hfragment, hbody⟩

theorem Expandable.exists_inlined {selections : List Selection}
    (h : Expandable fragments selections) : ∃ inlined, Inlined fragments selections inlined :=
  Entered.start.exists_inlined h

/-- So what is selected of a field is empty in both forms or in none, which is what
`Checker.selected` asks for. -/
theorem Inlined.isEmpty_eq {selections inlined : List Selection}
    (h : Inlined fragments selections inlined) (hexp : Expandable fragments selections) :
    inlined.isEmpty = selections.isEmpty := by
  induction h with
  | nil => rfl
  | field => rfl
  | @spread name place fragment body rest others hfragment _ _ ihbody _ =>
    obtain ⟨found, hfound, hne, -⟩ := hexp.find List.mem_cons_self
    obtain rfl := Option.some.inj (hfound.symm.trans hfragment)
    have hbody := ihbody (hexp.enter List.mem_cons_self hfragment)
    cases body with
    | nil => exact absurd (List.isEmpty_iff.mp hbody.symm) hne
    | cons => rfl

end

/-! ## Planning alike -/

namespace Checker

/-- Two ways to count fields come to the same, unless the first is refused for a fragment on another
type. In the written-out form this refusal is not possible, as the types of fragments are gone. -/
def Agrees {α : Type} (first second : Counting α) : Prop :=
  ∀ count, (∃ name usedOn definedOn place,
    first count = .error (.fragmentMismatch name usedOn definedOn place)) ∨
      first count = second count

namespace Agrees

variable {α β : Type}

theorem refl (computation : Counting α) : Agrees computation computation :=
  fun _ => .inr rfl

theorem bind {first second : Counting α} {next other : α → Counting β}
    (h : Agrees first second) (hnext : ∀ a, Agrees (next a) (other a)) :
    Agrees (first >>= next) (second >>= other) := by
  intro count
  rcases h count with ⟨name, usedOn, definedOn, place, h⟩ | h
  · refine .inl ⟨name, usedOn, definedOn, place, ?_⟩
    rw [bind_counting, h]
    rfl
  · rw [bind_counting, bind_counting, h]
    cases second count with
    | error rejection => exact .inr rfl
    | ok result => exact hnext result.1 result.2

end Agrees

variable {checker : Checker}

/-- What a list of selections contributes is what its parts contribute, with the count passed from
one to the other. -/
theorem collectAll_append {spread : Spreader} {container : TypeDef} {depth : Nat}
    (selections others : List Selection) :
    collectAll checker spread container depth (selections ++ others) = do
      let fields ← collectAll checker spread container depth selections
      let rest ← collectAll checker spread container depth others
      return fields ++ rest := by
  induction selections with
  | nil => simp [collectAll]
  | cons selection rest ih =>
    simp only [List.cons_append, collectAll, ih, bind_assoc, pure_bind, List.append_assoc]

/-- A fragment that can be entered contributes what it selects, unless it is on another type. The
other refusals of `expand` are excluded by the hypotheses. -/
theorem agrees_expand {steps depth : Nat} {path : List String} {container : TypeDef}
    {name : String} {place : Position} {fragment : Fragment}
    {written : Counting (List PlannedField)}
    (hname : name ∉ path) (hfragment : checker.fragments.find? (·.name = name) = some fragment)
    (h : Agrees (collectAll checker (checker.expand steps (path ++ [name])) container depth
      fragment.selections) written) :
    Agrees (checker.expand (steps + 1) path container depth name place) written := by
  rw [expand]
  simp only [List.contains_eq_mem, hname, decide_false, Bool.false_eq_true, if_false, hfragment]
  by_cases hon : fragment.on = container.name
  · simpa only [hon, ne_eq, not_true_eq_false, if_false] using h
  · intro count
    refine .inl ⟨name, container.name, fragment.on, place, ?_⟩
    simp [hon]

theorem agrees_selected {spread spread' : Spreader} {others : List Fragment} {name type : String}
    {place : Position} {depth : Nat} {selections inlined : List Selection} {definition : TypeDef}
    (hempty : inlined.isEmpty = selections.isEmpty)
    (h : Agrees (collectAll checker spread definition (depth + 1) selections)
      (collectAll { checker with fragments := others } spread' definition (depth + 1) inlined)) :
    Agrees (selected checker spread name place depth selections definition type)
      (selected { checker with fragments := others } spread' name place depth inlined definition
        type) := by
  rw [selected, selected, hempty]
  cases definition.kind with
  | object fields =>
    cases selections.isEmpty
    · exact h.bind fun _ => .refl _
    · exact .refl _
  | _ => exact .refl _

/-- The induction is on how the inlined form comes about, with the path and the steps generalized;
`Entered` is what is known of them on the way. -/
theorem agrees_collectAll {spread : Spreader} {others : List Fragment}
    {selections inlined : List Selection} (h : Inlined checker.fragments selections inlined)
    (hexp : Expandable checker.fragments selections) {steps : Nat} {path : List String}
    (hentered : Entered checker.fragments steps path selections) (container : TypeDef)
    (depth : Nat) :
    Agrees (collectAll checker (checker.expand steps path) container depth selections)
      (collectAll { checker with fragments := others } spread container depth inlined) := by
  induction h generalizing steps path container depth with
  | nil => exact .refl _
  | @field alias? name arguments selections inlined rest rest' place hinner _ ihinner ihrest =>
    have hrest := ihrest hexp.tail
      (hentered.mono fun _ hmem => List.mem_append_right _ hmem) container depth
    have hempty := hinner.isEmpty_eq hexp.inner
    rw [collectAll, collectAll, collect_field, collect_field, typenameField, typenameField, hempty]
    -- counts and depth come before what is selected, and do not depend on it
    refine Agrees.bind (Agrees.bind (.refl _) fun _ => ?_)
      fun _ => hrest.bind fun _ => .refl _
    split
    · exact .refl _
    · split
      · exact .refl _
      · cases checker.schema.field? container.name name with
        | none => exact .refl _
        | some definition =>
          cases ht : checker.schema.type? definition.type.underlying with
          | none =>
            simp only [ht]
            exact .refl _
          | some typeDef =>
            simp only [ht]
            refine (agrees_selected hempty ?_).bind fun _ => .refl _
            exact ihinner hexp.inner
              (hentered.mono fun _ hmem => List.mem_append_left _ hmem) typeDef (depth + 1)
  | @spread name place fragment body rest rest' hfragment hbody _ ihbody ihrest =>
    have hused : name ∈ Selection.usesAll (.spread name place :: rest) := List.mem_cons_self
    obtain ⟨hname, left, rfl, hinside⟩ := hentered.enter hused hfragment (hexp.not_loop hused)
    have hrest := ihrest hexp.tail
      (hentered.mono fun _ hmem => List.mem_append_right _ hmem) container depth
    rw [collectAll_append, collectAll, collect]
    refine Agrees.bind (agrees_expand hname hfragment ?_) fun _ => hrest.bind fun _ => .refl _
    exact ihbody (hexp.enter hused hfragment) hinside container depth

/-- From `collectAll` to `select`, which merges what is collected, on both sides the same. -/
theorem agrees_select {others : List Fragment} {selections inlined : List Selection}
    (h : Inlined checker.fragments selections inlined)
    (hexp : Expandable checker.fragments selections) (container : TypeDef) :
    Agrees (checker.select container selections)
      (select { checker with fragments := others } container inlined) :=
  (agrees_collectAll h hexp .start container 1).bind fun _ => .refl _

end Checker

/-! ## Documents -/

/-- An operation, and what it is with its selections written out, if that is possible; if not, then
whatever it is. So every operation has such a form, and one that cannot be written out does not keep
others in the document from it. -/
def Operation.Inlined (fragments : List Fragment) (operation written : Operation) : Prop :=
  ∃ selections, written = { operation with selections := selections } ∧
    (Expandable fragments operation.selections →
      FeedGraph.Inlined fragments operation.selections selections)

inductive Operations.Inlined (fragments : List Fragment) : Operations → Operations → Prop where
  /-- the only operation -/
  | anonymous {operation written : Operation} :
      operation.Inlined fragments written →
        Operations.Inlined fragments (.anonymous operation) (.anonymous written)
  /-- operations with names -/
  | named {operations written : List (String × Operation)} :
      List.Forall₂ (fun first second => first.1 = second.1 ∧ first.2.Inlined fragments second.2)
        operations written →
      Operations.Inlined fragments (.named operations) (.named written)

/-- A document, and what it is written out. Which fragments the written-out document has makes no
difference; it uses none of them. -/
def Document.Inlined (document written : Document) : Prop :=
  document.operations.Inlined document.fragments written.operations

theorem Operation.exists_inlined (fragments : List Fragment) (operation : Operation) :
    ∃ written, operation.Inlined fragments written := by
  by_cases h : Expandable fragments operation.selections
  · obtain ⟨selections, hselections⟩ := h.exists_inlined
    exact ⟨_, selections, rfl, fun _ => hselections⟩
  · exact ⟨operation, operation.selections, rfl, fun hexp => absurd hexp h⟩

theorem Document.exists_inlined (document : Document) : ∃ written, document.Inlined written := by
  obtain ⟨operations, fragments⟩ := document
  cases operations with
  | anonymous operation =>
    obtain ⟨written, hwritten⟩ := operation.exists_inlined fragments
    exact ⟨⟨.anonymous written, []⟩, .anonymous hwritten⟩
  | named operations =>
    have hall : ∃ written : List (String × Operation), List.Forall₂ (fun first second =>
        first.1 = second.1 ∧ first.2.Inlined fragments second.2) operations written := by
      induction operations with
      | nil => exact ⟨[], .nil⟩
      | cons operation rest ih =>
        obtain ⟨written, hwritten⟩ := operation.2.exists_inlined fragments
        obtain ⟨others, hothers⟩ := ih
        exact ⟨(operation.1, written) :: others, .cons ⟨rfl, hwritten⟩ hothers⟩
    obtain ⟨written, hwritten⟩ := hall
    exact ⟨⟨.named written, []⟩, .named hwritten⟩

theorem Operations.Inlined.get? {fragments : List Fragment}
    {operations written : List (String × Operation)}
    (h : List.Forall₂ (fun first second => first.1 = second.1 ∧ first.2.Inlined fragments second.2)
      operations written) (name : String) :
    (Members.get? operations name = none ∧ Members.get? written name = none) ∨
      ∃ operation out, Members.get? operations name = some operation ∧
        Members.get? written name = some out ∧ operation.Inlined fragments out := by
  induction h with
  | nil => exact .inl ⟨rfl, rfl⟩
  | @cons first second rest others hhead _ ih =>
    obtain ⟨key, operation⟩ := first
    obtain ⟨key', out⟩ := second
    obtain ⟨rfl, hout⟩ : key = key' ∧ operation.Inlined fragments out := hhead
    rw [Members.get?_cons, Members.get?_cons]
    by_cases hkey : key = name
    · rw [if_pos hkey, if_pos hkey]
      exact .inr ⟨operation, out, rfl, rfl, hout⟩
    · rw [if_neg hkey, if_neg hkey]
      exact ih

/-- The choice of an operation looks at names and at how many there are, and both are the same in
the two documents. -/
theorem Document.Inlined.choose {document written : Document} (h : document.Inlined written)
    (operationName? : Option String) :
    (∃ rejection, document.choose operationName? = .error rejection ∧
      written.choose operationName? = .error rejection) ∨
    ∃ name? operation out, document.choose operationName? = .ok (name?, operation) ∧
      written.choose operationName? = .ok (name?, out) ∧
      operation.Inlined document.fragments out := by
  obtain ⟨operations, fragments⟩ := document
  obtain ⟨operations', fragments'⟩ := written
  cases h with
  | anonymous h => exact .inr ⟨_, _, _, rfl, rfl, h⟩
  | named h =>
    cases operationName? with
    | none =>
      cases h with
      | nil => exact .inl ⟨_, rfl, rfl⟩
      | cons hhead htail =>
        obtain ⟨hname, hout⟩ := hhead
        cases htail with
        | nil => exact .inr ⟨_, _, _, rfl, by rw [hname]; rfl, hout⟩
        | cons => exact .inl ⟨_, rfl, rfl⟩
    | some name =>
      have hget := Operations.Inlined.get? h name
      cases h with
      | nil => exact .inl ⟨_, rfl, rfl⟩
      | cons hhead htail =>
        rcases hget with ⟨hnone, hnone'⟩ | ⟨operation, out, hsome, hsome', hout⟩
        · refine .inl ⟨.unknownOperation name, ?_, ?_⟩
          · simp only [Document.choose, hnone]
          · simp only [Document.choose, hnone']
        · refine .inr ⟨some name, operation, out, ?_, ?_, hout⟩
          · simp only [Document.choose, hsome]
          · simp only [Document.choose, hsome']

namespace Plan

/-- The root and the bindings do not depend on selections, and what is selected of the root is
`agrees_select`. -/
theorem ofOperation_inlined {fragments others : List Fragment} {operation written : Operation}
    (hexp : Expandable fragments operation.selections) (h : operation.Inlined fragments written)
    (schema : Schema) (supplied : Members Json) (depthLimit : Nat) (name? : Option String) :
    (∃ name usedOn definedOn place,
      ofOperation schema fragments supplied depthLimit name? operation =
        .error (.fragmentMismatch name usedOn definedOn place)) ∨
      ofOperation schema fragments supplied depthLimit name? operation =
        ofOperation schema others supplied depthLimit name? written := by
  obtain ⟨selections, rfl, h⟩ := h
  -- the root and the bindings do not depend on what is selected
  have hroot : rootOf schema { operation with selections := selections } =
    rootOf schema operation := rfl
  have hbindings : Operation.bindings { operation with selections := selections } supplied =
    operation.bindings supplied := rfl
  rw [ofOperation, ofOperation, hroot, hbindings]
  cases rootOf schema operation with
  | error rejection => exact .inr rfl
  | ok root =>
    cases operation.bindings supplied with
    | error rejection => exact .inr rfl
    | ok bindings =>
      have hselect := @Checker.agrees_select ⟨schema, bindings, fragments, depthLimit⟩ others _ _
        (h hexp) hexp root 0
      rcases hselect with ⟨name, usedOn, definedOn, place, hselect⟩ | hselect
      · refine .inl ⟨name, usedOn, definedOn, place, ?_⟩
        simp only [StateT.run, bind, Except.bind, hselect]
      · refine .inr ?_
        simp only [StateT.run, bind, Except.bind, hselect]

/-- Fragments are abbreviations. Any document has a written-out form, and if the operation that is
asked for can be written out, both are planned alike or rejected for the same reason, unless the
document itself is rejected for a fragment on another type. -/
theorem ofDocument_inlined {document : Document} {operationName? : Option String}
    (hexp : ∀ name? operation, document.choose operationName? = .ok (name?, operation) →
      Expandable document.fragments operation.selections)
    (schema : Schema) (supplied : Members Json) (depthLimit : Nat) :
    (∃ written, document.Inlined written) ∧
      ∀ written, document.Inlined written →
        (∃ name usedOn definedOn place,
          ofDocument schema document operationName? supplied depthLimit =
            .error (.fragmentMismatch name usedOn definedOn place)) ∨
          ofDocument schema document operationName? supplied depthLimit =
            ofDocument schema written operationName? supplied depthLimit := by
  refine ⟨document.exists_inlined, fun written h => ?_⟩
  rw [ofDocument, ofDocument]
  rcases h.choose operationName? with ⟨rejection, hfirst, hsecond⟩ |
    ⟨name?, operation, out, hfirst, hsecond, hout⟩
  · rw [hfirst, hsecond]
    exact .inr rfl
  · rw [hfirst, hsecond]
    exact ofOperation_inlined (hexp name? operation hfirst) hout schema supplied depthLimit name?

end Plan

namespace Concerts

/-- One fragment that is used twice, once by another fragment. -/
def nested : Document where
  operations := .anonymous ⟨.query, [],
    [.spread "Top" ⟨1, 3⟩,
      .field (some "c") "concert" [seven ⟨2, 16⟩]
        [.field none "acts" [] [.spread "Place" ⟨3, 8⟩] ⟨3, 1⟩] ⟨2, 1⟩], ⟨1, 1⟩⟩
  fragments :=
    [⟨"Place", "Concert", [.field none "venue" [] [.field none "name" [] [] ⟨5, 9⟩] ⟨5, 1⟩],
        ⟨4, 1⟩⟩,
      ⟨"Top", "Query", [.field (some "c") "concert" [seven ⟨7, 16⟩]
        [.spread "Place" ⟨8, 1⟩, .field none "title" [] [] ⟨9, 1⟩] ⟨7, 1⟩], ⟨6, 1⟩⟩]

theorem nested_inlined :
    (∀ name? operation, nested.choose none = .ok (name?, operation) →
      Expandable nested.fragments operation.selections) ∧
    (∃ written, nested.Inlined written) ∧
      ∀ written, nested.Inlined written →
        (∃ name usedOn definedOn place, Plan.ofDocument schema nested none [] 16 =
            .error (.fragmentMismatch name usedOn definedOn place)) ∨
          Plan.ofDocument schema nested none [] 16 =
            Plan.ofDocument schema written none [] 16 := by
  have hexp : ∀ name? operation, nested.choose none = .ok (name?, operation) →
      Expandable nested.fragments operation.selections := by
    intro name? operation h
    obtain ⟨-, rfl⟩ := Prod.mk.inj (Except.ok.inj h)
    refine .of_rank (fun name => if name = "Top" then 1 else 0) (by decide) (by decide) ?_
    simp [nested, Selection.usesAll, Selection.uses, Selection.plainAll, Selection.plain]
  exact ⟨hexp, Plan.ofDocument_inlined hexp schema [] 16⟩

end Concerts

end FeedGraph
