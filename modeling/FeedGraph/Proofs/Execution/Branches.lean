import Mathlib.Data.List.Forall2
import Mathlib.Data.List.Nodup
import Mathlib.Data.List.Range
import FeedGraph.Execution.Response
import FeedGraph.Proofs.Plan.Merging

/-!
# Branches: paths that part

The fields of an object lie on different branches of the data, and so do the items of a list: the
steps to them differ. Two paths that start with different steps never meet again
(`not_prefix_of_ne`). What belongs to different branches is told apart by that; `pairwise_flatMap`
is how it is put together.
-/

namespace FeedGraph

namespace Path

/-- Paths that have parted, neither of which lies on the other. What is nulled at one of them leaves
the other alone. -/
def Apart (first second : Path) : Prop := ¬first <+: second ∧ ¬second <+: first

/-- A path that lies on another one has not taken a different step. -/
theorem not_prefix_of_ne {base first second : Path} {step other : PathStep} (hne : step ≠ other)
    (hfirst : base ++ [step] <+: first) (hsecond : base ++ [other] <+: second) :
    ¬first <+: second := by
  intro h
  -- both are so far on the second path, which has only one part of this length
  have hlength : (base ++ [step]).length = (base ++ [other]).length := by simp
  have heq := (List.prefix_of_prefix_length_le (hfirst.trans h) hsecond
    (Nat.le_of_eq hlength)).eq_of_length hlength
  exact hne (List.singleton_inj.mp (List.append_cancel_left heq))

/-- Different steps part paths. -/
theorem apart {base first second : Path} {step other : PathStep} (hne : step ≠ other)
    (hfirst : base ++ [step] <+: first) (hsecond : base ++ [other] <+: second) :
    Apart first second :=
  ⟨not_prefix_of_ne hne hfirst hsecond, not_prefix_of_ne hne.symm hsecond hfirst⟩

/-- A path is not longer than those it lies on, so a step further is never on the way. -/
theorem not_prefix_of_step {base : Path} {step : PathStep} : ¬base ++ [step] <+: base := by
  intro h
  have hlength := h.length_le
  rw [List.length_append, List.length_singleton] at hlength
  exact Nat.not_succ_le_self _ hlength

/-- Parts that have different steps: a relation between all paths of one part that also holds
between any paths that have parted holds between all paths of all parts. Taken with `≠` this says
that no path comes twice, and taken with `Apart` that failures do not lie on each other. -/
theorem pairwise_flatMap {ι τ : Type} {R : Path → Path → Prop} {base : Path}
    {step : ι → PathStep} {paths : τ → List Path} {items : List ι} {parts : List τ}
    (hR : ∀ first second, Apart first second → R first second)
    (hsteps : (items.map step).Nodup)
    (h : List.Forall₂ (fun item part => (paths part).Pairwise R ∧
      ∀ path ∈ paths part, base ++ [step item] <+: path) items parts) :
    (parts.flatMap paths).Pairwise R := by
  induction h with
  | nil => exact .nil
  | @cons item part items parts hpart hparts ih =>
    rw [List.map_cons, List.nodup_cons] at hsteps
    rw [List.flatMap_cons, List.pairwise_append]
    refine ⟨hpart.1, ih hsteps.2, fun first hfirst second hsecond => ?_⟩
    obtain ⟨other, hother, hsecond⟩ := List.mem_flatMap.mp hsecond
    obtain ⟨item', hitem', -, hbelow⟩ := exists_of_forall₂ hparts hother
    have hne : step item ≠ step item' := by
      intro heq
      exact hsteps.1 (List.mem_map.mpr ⟨item', hitem', heq.symm⟩)
    exact hR _ _ (apart hne (hpart.2 first hfirst) (hbelow second hsecond))

end Path

/-- The steps to fields with different output names differ. -/
theorem nodup_fieldSteps {fields : List PlannedField}
    (h : (fields.map PlannedField.output).Nodup) :
    (fields.map fun field => PathStep.field field.output).Nodup := by
  have heq : (fields.map fun field => PathStep.field field.output) =
      (fields.map PlannedField.output).map PathStep.field := by
    rw [List.map_map]
    rfl
  rw [heq]
  exact List.Nodup.map (fun _ _ hstep => PathStep.field.inj hstep) h

/-- The steps to the items of a list differ. -/
theorem nodup_indexSteps {α : Type} (items : List α) :
    (items.zipIdx.map fun item => PathStep.index item.2).Nodup := by
  have heq : (items.zipIdx.map fun item => PathStep.index item.2) =
      (List.range' 0 items.length).map PathStep.index := by
    rw [← List.zipIdx_map_snd, List.map_map]
    rfl
  rw [heq]
  exact List.Nodup.map (fun _ _ hstep => PathStep.index.inj hstep) List.nodup_range'

end FeedGraph
