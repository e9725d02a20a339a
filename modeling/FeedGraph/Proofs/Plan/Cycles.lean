import FeedGraph.Proofs.Plan.Accounts
import FeedGraph.Proofs.Plan.Sources

/-!
# Cycles: fragments that lead back to themselves

Following the fragments that selections use may not end, if a fragment leads back to itself.
`Checker.enter` is one round of that recursion, which asks only for the fragments that it is inside
of. It needs no count of the rounds that are left: `unrolled` makes some rounds and then goes on
with anything, and after more rounds than there are fragments what it goes on with makes no
difference (`unrolled_eq`).

The main statement is `Plan.ofDocument_cycles`. Collecting ends; a fragment that is reported really
leads back to itself (`Checker.Accounted`); in an accepted operation no fragment does; and fragments
that the operation does not lead to make no difference.
-/

namespace FeedGraph

open Relation

namespace Checker

variable {checker : Checker} {spread : Spreader}

/-! ## The recursion without a count -/

/-- What the use of a fragment contributes, inside the fragments on a path, given what fragments
contribute inside of it. It differs from a step of `Checker.expand` in that no number of steps comes
into it. -/
def enter (checker : Checker) (inside : List String → Spreader) (path : List String) : Spreader :=
  fun container depth name place =>
    if path.contains name then throw (.fragmentCycle name place)
    else
      match checker.fragments.find? (·.name = name) with
      | none => throw (.fragmentNotFound name place)
      | some fragment =>
        if fragment.on ≠ container.name then
          throw (.fragmentMismatch name container.name fragment.on place)
        else collectAll checker (inside (path ++ [name])) container depth fragment.selections

/-- So many rounds of `enter`, and then whatever is given. If it makes no difference what is given,
then the recursion that asks for the path alone has ended. -/
def unrolled (checker : Checker) (inside : List String → Spreader) : Nat → List String → Spreader
  | 0 => inside
  | steps + 1 => enter checker (unrolled checker inside steps)

/-- `Checker.select` with `unrolled` in the place of `expand`. -/
def selectUnrolled (checker : Checker) (inside : List String → Spreader) (steps : Nat)
    (container : TypeDef) (selections : List Selection) : Counting (List PlannedField) := do
  let collected ← collectAll checker (checker.unrolled inside steps []) container 1 selections
  PlannedField.merge collected

/-- The induction is on the rounds. While the path can grow, both do the same; when it cannot, there
is no fragment outside of it, and any further one is refused for being on it. With more rounds than
there are fragments left, what is given at their end is never asked for. -/
theorem unrolled_eq (inside : List String → Spreader) {steps left : Nat} {path : List String}
    (hentered : Entered checker.fragments left path []) (hlt : left < steps) :
    checker.unrolled inside steps path = checker.expand left path := by
  induction steps generalizing left path with
  | zero => exact absurd hlt (Nat.not_lt_zero left)
  | succ steps ih =>
    funext container depth name place
    rw [unrolled, enter, expand]
    by_cases hpath : path.contains name = true
    · rw [if_pos hpath, if_pos hpath]
    · rw [if_neg hpath, if_neg hpath]
      cases hfragment : checker.fragments.find? (·.name = name) with
      | none => rfl
      | some fragment =>
        have hnew : name ∉ path := by simpa using hpath
        have hleads : ∀ before ∈ path ++ [name], ∀ used ∈ Selection.usesAll [],
            TransGen (Uses checker.fragments) before used :=
          fun _ _ _ hused => absurd hused List.not_mem_nil
        obtain ⟨rest, rfl, hrest⟩ := hentered.extend hnew hfragment hleads
        simp only [ih hrest (by omega)]

/-- Collecting ends: it is not seen what comes after more rounds than there are fragments. -/
theorem selectUnrolled_eq (inside : List String → Spreader) {steps : Nat}
    (hlt : checker.fragments.length < steps) (container : TypeDef) (selections : List Selection) :
    checker.selectUnrolled inside steps container selections =
      checker.select container selections := by
  rw [selectUnrolled, select, unrolled_eq inside .start hlt]

/-! ## Fragments that are not used -/

mutual

/-- What a selection contributes depends on its `uses` only. The fragments that a checker has are
not looked at but through `spread`. -/
theorem collect_congr {others : List Fragment} {spread' : Spreader} (container : TypeDef)
    (depth : Nat) (selection : Selection)
    (hspread : ∀ name ∈ selection.uses, ∀ container depth place,
      spread' container depth name place = spread container depth name place) :
    collect { checker with fragments := others } spread' container depth selection =
      collect checker spread container depth selection := by
  match selection with
  | .spread fragment place =>
    simp only [collect]
    exact hspread fragment (by simp [Selection.uses]) container depth place
  | .inline _ place => simp only [collect]
  | .field alias? name arguments selections place =>
    simp only [collect, collectAll_congr _ (depth + 1) selections hspread]

theorem collectAll_congr {others : List Fragment} {spread' : Spreader} (container : TypeDef)
    (depth : Nat) (selections : List Selection)
    (hspread : ∀ name ∈ Selection.usesAll selections, ∀ container depth place,
      spread' container depth name place = spread container depth name place) :
    collectAll { checker with fragments := others } spread' container depth selections =
      collectAll checker spread container depth selections := by
  match selections with
  | [] => simp only [collectAll]
  | selection :: rest =>
    rw [collectAll, collectAll,
      collect_congr container depth selection
        fun name hname => hspread name (List.mem_append_left _ hname),
      collectAll_congr container depth rest
        fun name hname => hspread name (List.mem_append_right _ hname)]

end

/-- Fragments contribute the same in two documents in which the fragments that they lead to are the
same. As `unrolled` has no condition on its steps, this can be shown by induction on the rounds; for
`expand` the number of steps would differ between the documents. -/
theorem unrolled_congr {others : List Fragment} (inside : List String → Spreader) (steps : Nat)
    (path : List String) (container : TypeDef) (depth : Nat) (name : String) (place : Position)
    (hsame : ∀ used, ReflTransGen (Uses checker.fragments) name used →
      others.find? (·.name = used) = checker.fragments.find? (·.name = used)) :
    unrolled { checker with fragments := others } inside steps path container depth name place =
      unrolled checker inside steps path container depth name place := by
  induction steps generalizing path container depth name place with
  | zero => rfl
  | succ steps ih =>
    rw [unrolled, unrolled, enter, enter]
    simp only [hsame name .refl]
    split
    · rfl
    cases hfragment : checker.fragments.find? (·.name = name) with
    | none => rfl
    | some fragment =>
      dsimp only
      split
      · rfl
      refine collectAll_congr container depth fragment.selections fun used hused _ _ _ => ?_
      exact ih _ _ _ used _ fun next hnext => hsame next (.head ⟨fragment, hfragment, hused⟩ hnext)

theorem select_congr {others : List Fragment} (container : TypeDef) (selections : List Selection)
    (hsame : ∀ name, Reached checker.fragments selections name →
      others.find? (·.name = name) = checker.fragments.find? (·.name = name)) :
    select { checker with fragments := others } container selections =
      checker.select container selections := by
  -- the two documents may have different numbers of fragments, but rounds can be added
  have henough : checker.fragments.length < checker.fragments.length + others.length + 1 := by omega
  have henough' : others.length < checker.fragments.length + others.length + 1 := by omega
  have nothing : List String → Spreader := fun _ _ _ _ _ => throw .noOperation
  rw [← selectUnrolled_eq nothing henough container selections,
    ← @selectUnrolled_eq { checker with fragments := others } nothing _ henough' container
      selections,
    selectUnrolled, selectUnrolled]
  rw [collectAll_congr container 1 selections fun name hname container depth place =>
    unrolled_congr nothing _ [] container depth name place
      fun used hused => hsame used ⟨name, hname, hused⟩]

end Checker

/-! ## Operations that are accepted -/

/-- Selections that have a written-out form lead to no fragment that leads back to itself. The
induction is on how it comes about: if a fragment led back to itself, so would it inside of
itself. -/
theorem Inlined.acyclic {fragments : List Fragment} {selections inlined : List Selection}
    (h : Inlined fragments selections inlined) (name : String)
    (hreached : Reached fragments selections name) : ¬ TransGen (Uses fragments) name name := by
  induction h generalizing name with
  | nil =>
    obtain ⟨used, hused, -⟩ := hreached
    exact absurd hused List.not_mem_nil
  | field _ _ ihinner ihrest =>
    obtain ⟨used, hused, hpath⟩ := hreached
    rcases List.mem_append.mp hused with hused | hused
    · exact ihinner name ⟨used, hused, hpath⟩
    · exact ihrest name ⟨used, hused, hpath⟩
  | @spread first place fragment _ _ _ hfragment _ _ ihbody ihrest =>
    obtain ⟨used, hused, hpath⟩ := hreached
    rcases List.mem_cons.mp hused with rfl | hused
    · have hinside : ∀ next, TransGen (Uses fragments) used next →
          Reached fragments fragment.selections next := by
        intro next hnext
        obtain ⟨second, ⟨found, hfound, hsecond⟩, hlater⟩ := TransGen.head'_iff.mp hnext
        obtain rfl := Option.some.inj (hfound.symm.trans hfragment)
        exact ⟨second, hsecond, hlater⟩
      intro hloop
      rcases (reflTransGen_iff_eq_or_transGen.mp hpath) with rfl | hpath
      · exact ihbody name (hinside name hloop) hloop
      · exact ihbody name (hinside name hpath) hloop
    · exact ihrest name ⟨used, hused, hpath⟩

/-! ## Documents -/

namespace Plan

open Checker

/-- Fragments that lead back to themselves are found, and nothing else. Collecting ends: it comes to
the same whatever is done after more rounds than there are fragments, and nothing that is refused
for going on for ever is refused but the arguments of a field that is selected. A fragment that is
reported is led to by the operation and leads back to itself. No fragment that an accepted operation
leads to does. And fragments that the operation does not lead to make no difference. -/
theorem ofDocument_cycles (schema : Schema) (document : Document) (operationName? : Option String)
    (supplied : Members Json) (depthLimit : Nat) :
    (∀ bindings inside steps container selections, document.fragments.length < steps →
      selectUnrolled ⟨schema, bindings, document.fragments, depthLimit⟩ inside steps container
          selections =
        select ⟨schema, bindings, document.fragments, depthLimit⟩ container selections) ∧
    (∀ argument place,
      ofDocument schema document operationName? supplied depthLimit =
          .error (.endlessDefault argument place) →
        ∃ name? operation root bindings use definition,
          document.choose operationName? = .ok (name?, operation) ∧
          schema.root? operation.kind = some root ∧ operation.bindings supplied = .ok bindings ∧
          Selects schema document.fragments use root operation.selections ∧
          use.name ≠ PlannedField.typename ∧
          schema.field? use.container use.name = some definition ∧
          Coercion.coerceAll schema bindings use.name use.place definition.arguments use.arguments =
            .error (.endlessDefault argument place)) ∧
    (∀ name place,
      ofDocument schema document operationName? supplied depthLimit =
          .error (.fragmentCycle name place) →
        ∃ name? operation, document.choose operationName? = .ok (name?, operation) ∧
          Reached document.fragments operation.selections name ∧
          TransGen (Uses document.fragments) name name) ∧
    (∀ plan, ofDocument schema document operationName? supplied depthLimit = .ok plan →
      ∃ name? operation, document.choose operationName? = .ok (name?, operation) ∧
        ∀ name, Reached document.fragments operation.selections name →
          ¬ TransGen (Uses document.fragments) name name) ∧
    ∀ others, (∀ name? operation, document.choose operationName? = .ok (name?, operation) →
        ∀ name, Reached document.fragments operation.selections name →
          others.find? (·.name = name) = document.fragments.find? (·.name = name)) →
      ofDocument schema ⟨document.operations, others⟩ operationName? supplied depthLimit =
        ofDocument schema document operationName? supplied depthLimit := by
  refine ⟨fun bindings inside steps container selections hlt => ?_, fun argument place h => ?_,
    fun name place h => ?_, fun plan h => ?_, fun others hsame => ?_⟩
  · exact selectUnrolled_eq inside hlt container selections
  · obtain ⟨name?, operation, root, bindings, hchoose, hroot, hbindings, use, definition, hrest⟩ :=
      faults_ofDocument _ _ _ _ _ _ h trivial
    exact ⟨name?, operation, root, bindings, use, definition, hchoose, hroot, hbindings, hrest⟩
  · obtain ⟨name?, operation, root, bindings, hchoose, -, -, hreached, hloop⟩ :=
      faults_ofDocument _ _ _ _ _ _ h trivial
    exact ⟨name?, operation, hchoose, hreached, hloop⟩
  · obtain ⟨name?, operation, root, bindings, inlined, hchoose, -, -, hinlined, -⟩ :=
      exists_sources h
    exact ⟨name?, operation, hchoose, hinlined.acyclic⟩
  · have hchosen : Document.choose ⟨document.operations, others⟩ operationName? =
        document.choose operationName? := rfl
    rw [ofDocument, ofDocument, hchosen]
    cases hchoose : document.choose operationName? with
    | error rejection => rfl
    | ok chosen =>
      have hselect := fun bindings root => @select_congr
        ⟨schema, bindings, document.fragments, depthLimit⟩ others root chosen.2.selections
        (hsame chosen.1 chosen.2 hchoose)
      simp only [bind, Except.bind, ofOperation, hselect]

end Plan

namespace Concerts

def looping : Document where
  operations := nested.operations
  fragments := nested.fragments ++ [⟨"Loop", "Query", [.spread "Loop" ⟨11, 1⟩], ⟨10, 1⟩⟩]

/-- A fragment may be used twice, and one that is not used may use itself. -/
example : (Plan.ofDocument schema looping none [] 16).isOk = true := by
  cbv

example :
    Plan.ofDocument schema
        { looping with operations := .anonymous ⟨.query, [], [.spread "Loop" ⟨1, 3⟩], ⟨1, 1⟩⟩ }
        none [] 16 = .error (.fragmentCycle "Loop" ⟨11, 1⟩) := by
  cbv

end Concerts

end FeedGraph
