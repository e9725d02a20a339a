import Mathlib.Data.List.Forall2
import FeedGraph.Plan.Collect

/-!
# Results: what a computation that succeeds consists of

Coercion, merging and collection are chains of steps, each of which may be refused. A chain that
ends with a result has had a result at every link. The lemmas here take chains apart, those of plain
results first and then those that count fields.
-/

namespace FeedGraph

/-! ## Plain results -/

section

variable {ε α β : Type}

/-- A step and what comes behind it. -/
theorem ok_of_bind {x : Except ε α} {f : α → Except ε β} {b : β} (h : x >>= f = .ok b) :
    ∃ a, x = .ok a ∧ f a = .ok b := by
  cases x with
  | error e => cases h
  | ok a => exact ⟨a, rfl, h⟩

/-- A step whose result is changed. -/
theorem ok_of_map {x : Except ε α} {f : α → β} {b : β} (h : f <$> x = .ok b) :
    ∃ a, x = .ok a ∧ f a = b := by
  cases x with
  | error e => cases h
  | ok a => exact ⟨a, rfl, Except.ok.inj h⟩

/-- A step for each item of a list, as a relation between the items and the results. With `R` a
relation that says what is meant, and not how it is computed, this is where the one turns into the
other. -/
theorem mapM_eq_ok_iff {R : α → β → Prop} {f : α → Except ε β} {xs : List α}
    (hf : ∀ x ∈ xs, ∀ y, f x = .ok y ↔ R x y) {ys : List β} :
    xs.mapM f = .ok ys ↔ List.Forall₂ R xs ys := by
  induction xs generalizing ys with
  | nil =>
    constructor
    · intro h
      obtain rfl := Except.ok.inj h
      exact .nil
    · intro h
      cases h
      rfl
  | cons x rest ih =>
    obtain ⟨hx, hrest⟩ := List.forall_mem_cons.mp hf
    rw [List.mapM_cons]
    constructor
    · intro h
      obtain ⟨y, hy, h⟩ := ok_of_bind h
      obtain ⟨others, hothers, h⟩ := ok_of_bind h
      obtain rfl := Except.ok.inj h
      exact .cons ((hx y).mp hy) ((ih hrest).mp hothers)
    · intro h
      cases h with
      | cons hy hothers =>
        rw [(hx _).mpr hy, (ih hrest).mpr hothers]
        rfl

theorem forall₂_of_mapM {f : α → Except ε β} {xs : List α} {ys : List β}
    (h : xs.mapM f = .ok ys) : List.Forall₂ (fun x y => f x = .ok y) xs ys :=
  (mapM_eq_ok_iff fun _ _ _ => Iff.rfl).mp h

theorem exists_mapM {f : α → Except ε β} {xs : List α} (h : ∀ x ∈ xs, ∃ y, f x = .ok y) :
    ∃ ys, xs.mapM f = .ok ys := by
  induction xs with
  | nil => exact ⟨[], rfl⟩
  | cons x rest ih =>
    obtain ⟨⟨y, hy⟩, hrest⟩ := List.forall_mem_cons.mp h
    obtain ⟨ys, hys⟩ := ih hrest
    refine ⟨y :: ys, ?_⟩
    rw [List.mapM_cons, hy, hys]
    rfl

/-- Two computations have results that are related by `R`, or are refused for the same reason. -/
inductive Parallel (R : α → β → Prop) : Except ε α → Except ε β → Prop where
  /-- both have results -/
  | ok {a : α} {b : β} : R a b → Parallel R (.ok a) (.ok b)
  /-- neither has -/
  | error (e : ε) : Parallel R (.error e) (.error e)

theorem Parallel.cases {R : α → β → Prop} {x : Except ε α} {y : Except ε β} (h : Parallel R x y) :
    (∃ e, x = .error e ∧ y = .error e) ∨ ∃ a b, x = .ok a ∧ y = .ok b ∧ R a b := by
  cases h with
  | ok hr => exact .inr ⟨_, _, rfl, rfl, hr⟩
  | error e => exact .inl ⟨e, rfl, rfl⟩

theorem Parallel.map {γ δ : Type} {R : α → β → Prop} {S : γ → δ → Prop} {x : Except ε α}
    {y : Except ε β} {f : α → γ} {g : β → δ} (h : Parallel R x y)
    (hnext : ∀ a b, R a b → S (f a) (g b)) : Parallel S (x.map f) (y.map g) := by
  cases h with
  | ok hr => exact .ok (hnext _ _ hr)
  | error e => exact .error e

theorem Parallel.bind {γ δ : Type} {R : α → β → Prop} {S : γ → δ → Prop} {x : Except ε α}
    {y : Except ε β} {f : α → Except ε γ} {g : β → Except ε δ} (h : Parallel R x y)
    (hnext : ∀ a b, R a b → Parallel S (f a) (g b)) : Parallel S (x >>= f) (y >>= g) := by
  cases h with
  | ok hr => exact hnext _ _ hr
  | error e => exact .error e

/-- If what comes behind does not tell related results apart, then the computations are equal. -/
theorem Parallel.bind_eq {γ : Type} {R : α → β → Prop} {x : Except ε α} {y : Except ε β}
    {f : α → Except ε γ} {g : β → Except ε γ} (h : Parallel R x y)
    (hnext : ∀ a b, R a b → f a = g b) : x >>= f = y >>= g := by
  cases h with
  | ok hr => exact hnext _ _ hr
  | error e => rfl

theorem mapM_eq_of_forall₂ {γ : Type} {f : α → Except ε γ} {g : β → Except ε γ} {xs : List α}
    {ys : List β} (h : List.Forall₂ (fun x y => f x = g y) xs ys) : xs.mapM f = ys.mapM g := by
  induction h with
  | nil => rfl
  | cons hfirst _ ih => rw [List.mapM_cons, List.mapM_cons, hfirst, ih]

theorem exists_of_forall₂ {R : α → β → Prop} {xs : List α} {ys : List β}
    (h : List.Forall₂ R xs ys) {y : β} (hy : y ∈ ys) : ∃ x ∈ xs, R x y := by
  induction h with
  | nil => cases hy
  | cons hr _ ih =>
    rcases List.mem_cons.mp hy with rfl | hy
    · exact ⟨_, List.mem_cons_self, hr⟩
    · obtain ⟨x, hx, hr'⟩ := ih hy
      exact ⟨x, List.mem_cons_of_mem _ hx, hr'⟩

end

/-! ## Results of counting -/

namespace Checker

variable {α β : Type} {count : Nat}

@[simp] theorem throw_counting (rejection : Rejection) :
    (throw rejection : Counting α) count = .error rejection := rfl

@[simp] theorem lift_counting (x : Except Rejection α) :
    (liftM x : Counting α) count = x.map (·, count) := by
  cases x <;> rfl

theorem ite_counting {condition : Prop} [Decidable condition] (x y : Counting α) :
    (if condition then x else y) count = if condition then x count else y count := by
  split <;> rfl

/-- A step of `Counting` as one of `Except`: the count that it leaves is the one from which goes on
what comes behind it. -/
theorem bind_counting (x : Counting α) (f : α → Counting β) :
    (x >>= f) count = (x count).bind fun result => f result.1 result.2 := by
  cases h : x count <;> simp [bind, StateT.bind, h]

theorem ok_of_bind_counting {x : Counting α} {f : α → Counting β} {result : β × Nat}
    (h : (x >>= f) count = .ok result) :
    ∃ a middle, x count = .ok (a, middle) ∧ f a middle = .ok result := by
  rw [bind_counting] at h
  obtain ⟨⟨a, middle⟩, ha, hf⟩ := ok_of_bind h
  exact ⟨a, middle, ha, hf⟩

theorem ok_of_lift {x : Except Rejection α} {result : α × Nat}
    (h : (liftM x : Counting α) count = .ok result) : x = .ok result.1 ∧ result.2 = count := by
  rw [lift_counting] at h
  cases x with
  | error rejection => cases h
  | ok a =>
    obtain rfl := Except.ok.inj h
    exact ⟨rfl, rfl⟩

end Checker

end FeedGraph
