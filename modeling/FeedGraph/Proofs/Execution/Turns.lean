import Mathlib.Data.List.Forall2
import FeedGraph.Execution.Fiber

/-!
# Turns: what taking turns does not change

When fibers take turns, the state that each of them finds depends on all of them, and with it what
becomes of them. Two things do not depend on it.

Results may be changed before the turns or after them (`both_map`, `all_map`): a fiber does not look
at the results of others.

What holds of a result however its fiber ends holds of it in turns with others (`endsAmong_both`,
`endsAmong_all`). `Fiber.EndsAmong` says that something holds of the result of a fiber, for any
states of one kind that it may find on the way, and that all the states that it leaves are of this
kind. Fibers that take turns find what the others leave, and so nothing but such states, if all of
them keep to it and the first state is one (`EndsAmong.run`). `Fiber.Ends` is the case of states of
any kind. A result that is known beforehand is a case of either (`endsAmong_all_eq`, `ends_all_eq`).
-/

namespace FeedGraph

namespace Fiber

variable {σ α β γ δ : Type}

/-! ## Changing results -/

@[simp] theorem map_done (f : α → β) (a : α) : (done a : Fiber σ α).map f = done (f a) := rfl

@[simp] theorem map_read (f : α → β) (next : σ → Fiber σ α) :
    (read next).map f = read fun s => (next s).map f := rfl

@[simp] theorem map_write (f : α → β) (s : σ) (next : Fiber σ α) :
    (write s next).map f = write s (next.map f) := rfl

@[simp] theorem map_pause (f : α → β) (next : Fiber σ α) :
    (pause next).map f = pause (next.map f) := rfl

theorem map_map (f : α → β) (g : β → γ) (fiber : Fiber σ α) :
    (fiber.map f).map g = fiber.map fun a => g (f a) :=
  bind_assoc fiber _ _

theorem map_bind (fiber : Fiber σ α) (k : α → Fiber σ β) (g : β → γ) :
    (fiber.bind k).map g = fiber.bind fun a => (k a).map g :=
  bind_assoc fiber _ _

theorem bind_map (f : α → β) (fiber : Fiber σ α) (k : β → Fiber σ γ) :
    (fiber.map f).bind k = fiber.bind fun a => k (f a) :=
  bind_assoc fiber _ _

theorem untilPause_map (f : α → β) (resume : Fiber σ β → Fiber σ γ) (fiber : Fiber σ α) :
    (fiber.map f).untilPause resume = fiber.untilPause fun rest => resume (rest.map f) := by
  induction fiber with
  | done a => rfl
  | read next ih => exact congrArg read (funext ih)
  | write s next ih => exact congrArg (write s) ih
  | pause next _ => rfl

theorem map_untilPause (g : β → γ) (resume : Fiber σ α → Fiber σ β) (fiber : Fiber σ α) :
    (fiber.untilPause resume).map g = fiber.untilPause fun rest => (resume rest).map g := by
  induction fiber with
  | done a => rfl
  | read next ih => exact congrArg read (funext ih)
  | write s next ih => exact congrArg (write s) ih
  | pause next _ => rfl

/-- Two results may be changed before the fibers take turns or after it: the turns are the same,
because no fiber looks at a result. -/
theorem both_map (f : α → β) (g : γ → δ) (fiber : Fiber σ α) (other : Fiber σ γ) :
    (fiber.map f).both (other.map g) = (fiber.both other).map (Prod.map f g) := by
  induction fiber generalizing other with
  | done a =>
    rw [map_done, both_done, both_done, map_map, map_map]
    rfl
  | read next ih => exact congrArg read (funext fun s => ih s other)
  | write s next ih => exact congrArg (write s) (ih other)
  | pause next ih =>
    rw [map_pause, both, both, untilPause_map, map_untilPause]
    congr 1
    exact funext ih

/-- The same for a list of fibers, by induction with `both_map`. -/
theorem all_map (f : α → β) (fibers : List (Fiber σ α)) :
    all (fibers.map (map f)) = (all fibers).map (List.map f) := by
  induction fibers with
  | nil => rfl
  | cons fiber rest ih =>
    rw [List.map_cons, all, all, ih, both_map, map_map, map_map]
    rfl

/-- And for fibers one after the other. -/
theorem sequence_map (f : α → β) (fibers : List (Fiber σ α)) :
    sequence (fibers.map (map f)) = (sequence fibers).map (List.map f) := by
  induction fibers with
  | nil => rfl
  | cons fiber rest ih =>
    rw [List.map_cons, sequence, sequence, ih, bind_map, map_bind]
    congr 1
    funext a
    rw [map_map, map_map]
    rfl

/-- Results that are known beforehand, one for each item of a list, are the list of them. -/
theorem eq_map_of_forall₂ {f : γ → α} {items : List γ} {results : List α}
    (h : List.Forall₂ (fun item result => result = f item) items results) :
    results = items.map f := by
  have heq : List.Forall₂ Eq (items.map f) results :=
    List.forall₂_map_left_iff.mpr (h.imp fun _ _ hresult => hresult.symm)
  rw [List.forall₂_eq_eq_eq] at heq
  exact heq.symm

/-! ## Among states of a kind -/

/-- As long as a fiber finds states of a kind, it leaves states of this kind, and something holds of
its result. A fiber may find any state of the kind each time it looks, since others may have had
their turn. -/
def EndsAmong (states : σ → Prop) (P : α → Prop) : Fiber σ α → Prop
  | .done a => P a
  | .read next => ∀ s, states s → (next s).EndsAmong states P
  | .write s next => states s ∧ next.EndsAmong states P
  | .pause next => next.EndsAmong states P

variable {states : σ → Prop}

/-- So it is with a run from one state of the kind: within a run, a fiber finds the states that it
has left itself, which are of the kind. -/
theorem EndsAmong.run {P : α → Prop} {fiber : Fiber σ α} (h : fiber.EndsAmong states P) {s : σ}
    (hs : states s) : P (fiber.run s).1 ∧ states (fiber.run s).2 := by
  induction fiber generalizing s with
  | done a => exact ⟨h, hs⟩
  | read next ih => exact ih s (h s hs) hs
  | write state next ih => exact ih h.2 h.1
  | pause next ih => exact ih h hs

/-- What follows from it holds too. -/
theorem EndsAmong.mono {P Q : α → Prop} {fiber : Fiber σ α} (h : fiber.EndsAmong states P)
    (hQ : ∀ a, P a → Q a) : fiber.EndsAmong states Q := by
  induction fiber with
  | done a => exact hQ a h
  | read next ih => exact fun s hs => ih s (h s hs)
  | write state next ih => exact ⟨h.1, ih h.2⟩
  | pause next ih => exact ih h

theorem endsAmong_done {P : α → Prop} {a : α} (h : P a) :
    (done a : Fiber σ α).EndsAmong states P := h

/-- However often a fiber is delayed, it ends in the same way. A pause gives other fibers their
turn, and these leave states of the kind. -/
theorem endsAmong_delay {P : α → Prop} {fiber : Fiber σ α} (h : fiber.EndsAmong states P)
    (rounds : Nat) : (delay rounds fiber).EndsAmong states P := by
  induction rounds with
  | zero => exact h
  | succ rounds ih => exact ih

theorem endsAmong_bind {P : α → Prop} {Q : β → Prop} {fiber : Fiber σ α} {k : α → Fiber σ β}
    (h : fiber.EndsAmong states P) (hk : ∀ a, P a → (k a).EndsAmong states Q) :
    (fiber.bind k).EndsAmong states Q := by
  induction fiber with
  | done a => exact hk a h
  | read next ih => exact fun s hs => ih s (h s hs)
  | write state next ih => exact ⟨h.1, ih h.2⟩
  | pause next ih => exact ih h

theorem endsAmong_map {P : α → Prop} {Q : β → Prop} {fiber : Fiber σ α} {f : α → β}
    (h : fiber.EndsAmong states P) (hf : ∀ a, P a → Q (f a)) : (fiber.map f).EndsAmong states Q :=
  endsAmong_bind h hf

theorem endsAmong_untilPause {P : α → Prop} {Q : β → Prop} {fiber : Fiber σ α}
    {resume : Fiber σ α → Fiber σ β} (h : fiber.EndsAmong states P)
    (hresume : ∀ rest : Fiber σ α, rest.EndsAmong states P → (resume rest).EndsAmong states Q) :
    (fiber.untilPause resume).EndsAmong states Q := by
  induction fiber with
  | done a => exact hresume _ h
  | read next ih => exact fun s hs => ih s (h s hs)
  | write state next ih => exact ⟨h.1, ih h.2⟩
  | pause next _ => exact hresume _ h

/-- In turns, each of two fibers ends as it does alone: what it finds after a pause is what the
other has left, and that is of the kind. The induction is on the one and within it on the other, as
they take turns. -/
theorem endsAmong_both {P : α → Prop} {Q : β → Prop} {fiber : Fiber σ α} {other : Fiber σ β}
    (h : fiber.EndsAmong states P) (hother : other.EndsAmong states Q) :
    (fiber.both other).EndsAmong states fun result => P result.1 ∧ Q result.2 := by
  induction fiber generalizing other with
  | done a => exact endsAmong_map hother fun _ hb => ⟨h, hb⟩
  | read next ih => exact fun s hs => ih s (h s hs) hother
  | write state next ih => exact ⟨h.1, ih h.2 hother⟩
  | pause next ih => exact endsAmong_untilPause hother fun rest hrest => ih h hrest

/-- The same for a list of fibers, one for each item of another list. -/
theorem endsAmong_all {R : γ → α → Prop} {items : List γ} {fiber : γ → Fiber σ α}
    (h : ∀ item ∈ items, (fiber item).EndsAmong states (R item)) :
    (all (items.map fiber)).EndsAmong states (List.Forall₂ R items) := by
  induction items with
  | nil => exact .nil
  | cons item rest ih =>
    have hrest := ih fun other hother => h other (List.mem_cons_of_mem _ hother)
    exact endsAmong_map (endsAmong_both (h item List.mem_cons_self) hrest) fun _ hab =>
      .cons hab.1 hab.2

/-- And for fibers one after the other. -/
theorem endsAmong_sequence {R : γ → α → Prop} {items : List γ} {fiber : γ → Fiber σ α}
    (h : ∀ item ∈ items, (fiber item).EndsAmong states (R item)) :
    (sequence (items.map fiber)).EndsAmong states (List.Forall₂ R items) := by
  induction items with
  | nil => exact .nil
  | cons item rest ih =>
    have hrest := ih fun other hother => h other (List.mem_cons_of_mem _ hother)
    refine endsAmong_bind (h item List.mem_cons_self) fun a ha => ?_
    exact endsAmong_map hrest fun _ hrest => .cons ha hrest

/-- In turns, fibers whose results are known beforehand end with the list of these results, each in
the place of its fiber and not in the order in which they end. -/
theorem endsAmong_all_eq {f : γ → α} {items : List γ} {fiber : γ → Fiber σ α}
    (h : ∀ item ∈ items, (fiber item).EndsAmong states (· = f item)) :
    (all (items.map fiber)).EndsAmong states (· = items.map f) :=
  (endsAmong_all h).mono fun _ => eq_map_of_forall₂

/-! ## However a fiber ends -/

/-- Something holds of the result of a fiber, whatever states it finds. This is the case of
`EndsAmong` in which all states are of the kind, stated by itself as nothing has to be kept. -/
def Ends (P : α → Prop) : Fiber σ α → Prop
  | .done a => P a
  | .read next => ∀ s, (next s).Ends P
  | .write _ next => next.Ends P
  | .pause next => next.Ends P

/-- States of any kind are states of the kind of all states. -/
theorem ends_iff {P : α → Prop} {fiber : Fiber σ α} :
    fiber.Ends P ↔ fiber.EndsAmong (fun _ => True) P := by
  induction fiber with
  | done a => exact Iff.rfl
  | read next ih => exact ⟨fun h s _ => (ih s).mp (h s), fun h s => (ih s).mpr (h s trivial)⟩
  | write state next ih => exact ⟨fun h => ⟨trivial, ih.mp h⟩, fun h => ih.mpr h.2⟩
  | pause next ih => exact ih

/-- So it holds of the result from any one state. -/
theorem Ends.run {P : α → Prop} {fiber : Fiber σ α} (h : fiber.Ends P) (s : σ) :
    P (fiber.run s).1 :=
  ((ends_iff.mp h).run trivial).1

theorem Ends.mono {P Q : α → Prop} {fiber : Fiber σ α} (h : fiber.Ends P)
    (hQ : ∀ a, P a → Q a) : fiber.Ends Q :=
  ends_iff.mpr ((ends_iff.mp h).mono hQ)

theorem ends_done {P : α → Prop} {a : α} (h : P a) : (done a : Fiber σ α).Ends P := h

theorem ends_delay {P : α → Prop} {fiber : Fiber σ α} (h : fiber.Ends P) (rounds : Nat) :
    (delay rounds fiber).Ends P :=
  ends_iff.mpr (endsAmong_delay (ends_iff.mp h) rounds)

theorem ends_true (fiber : Fiber σ α) : fiber.Ends fun _ => True := by
  induction fiber with
  | done a => trivial
  | read next ih => exact ih
  | write state next ih => exact ih
  | pause next ih => exact ih

theorem ends_bind {P : α → Prop} {Q : β → Prop} {fiber : Fiber σ α} {k : α → Fiber σ β}
    (h : fiber.Ends P) (hk : ∀ a, P a → (k a).Ends Q) : (fiber.bind k).Ends Q :=
  ends_iff.mpr (endsAmong_bind (ends_iff.mp h) fun a ha => ends_iff.mp (hk a ha))

theorem ends_map {P : α → Prop} {Q : β → Prop} {fiber : Fiber σ α} {f : α → β}
    (h : fiber.Ends P) (hf : ∀ a, P a → Q (f a)) : (fiber.map f).Ends Q :=
  ends_bind h hf

/-- In turns, each of some fibers ends as it does alone. -/
theorem ends_all {R : γ → α → Prop} {items : List γ} {fiber : γ → Fiber σ α}
    (h : ∀ item ∈ items, (fiber item).Ends (R item)) :
    (all (items.map fiber)).Ends (List.Forall₂ R items) :=
  ends_iff.mpr (endsAmong_all fun item hmem => ends_iff.mp (h item hmem))

/-- And so it does if they come one after the other. -/
theorem ends_sequence {R : γ → α → Prop} {items : List γ} {fiber : γ → Fiber σ α}
    (h : ∀ item ∈ items, (fiber item).Ends (R item)) :
    (sequence (items.map fiber)).Ends (List.Forall₂ R items) :=
  ends_iff.mpr (endsAmong_sequence fun item hmem => ends_iff.mp (h item hmem))

/-- In turns, fibers whose results are known beforehand end with the list of these results. -/
theorem ends_all_eq {f : γ → α} {items : List γ} {fiber : γ → Fiber σ α}
    (h : ∀ item ∈ items, (fiber item).Ends (· = f item)) :
    (all (items.map fiber)).Ends (· = items.map f) :=
  (ends_all h).mono fun _ => eq_map_of_forall₂

/-- And so they do one after the other. -/
theorem ends_sequence_eq {f : γ → α} {items : List γ} {fiber : γ → Fiber σ α}
    (h : ∀ item ∈ items, (fiber item).Ends (· = f item)) :
    (sequence (items.map fiber)).Ends (· = items.map f) :=
  (ends_sequence h).mono fun _ => eq_map_of_forall₂

end Fiber

end FeedGraph
