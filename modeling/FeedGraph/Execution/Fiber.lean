/-!
# Fiber: computations that pause

A fiber is a computation on a shared state that may pause. What it does between two pauses is not
interrupted. `Fiber.both` lets two fibers take turns: in every round the first goes on to its next
pause, then the second, until both have finished; `Fiber.all` does so with a list, in its order.
`Fiber.run` takes a fiber to its end.

A fiber is a finite tree, so that whatever the state it finishes after finitely many rounds.
-/

namespace FeedGraph

universe u

/-- A computation of an `α` on a state `σ` that may pause. -/
inductive Fiber (σ : Type) (α : Type u) : Type u where
  /-- finished -/
  | done (result : α)
  /-- goes on as the state tells -/
  | read (next : σ → Fiber σ α)
  /-- replaces the state and goes on -/
  | write (state : σ) (next : Fiber σ α)
  /-- pauses until the next round -/
  | pause (next : Fiber σ α)

namespace Fiber

variable {σ : Type} {α β γ : Type}

/-- Goes on with what the result tells, without a pause. -/
def bind : Fiber σ α → (α → Fiber σ β) → Fiber σ β
  | .done a, k => k a
  | .read next, k => .read fun s => (next s).bind k
  | .write s next, k => .write s (next.bind k)
  | .pause next, k => .pause (next.bind k)

instance : Monad (Fiber σ) where
  pure := .done
  bind := bind

def map (f : α → β) (fiber : Fiber σ α) : Fiber σ β := fiber.bind fun a => .done (f a)

def step (f : σ → α × σ) : Fiber σ α := .read fun s => .write (f s).2 (.done (f s).1)

def delay : Nat → Fiber σ α → Fiber σ α
  | 0, fiber => fiber
  | rounds + 1, fiber => .pause (delay rounds fiber)

/-- Goes on to the next pause or the end, and pauses there; what comes then is given. A fiber that
has ended is not waited for, but `resume` is still given it, as the other fiber has to know that it
is done. -/
def untilPause (resume : Fiber σ α → Fiber σ β) : Fiber σ α → Fiber σ β
  | .done a => .pause (resume (.done a))
  | .read next => .read fun s => (next s).untilPause resume
  | .write s next => .write s (next.untilPause resume)
  | .pause next => .pause (resume next)

/-- Two fibers that take turns, the first before the second in every round. The recursion is on the
first; the second is advanced by `untilPause`. -/
def both : Fiber σ α → Fiber σ β → Fiber σ (α × β)
  | .done a, other => other.map fun b => (a, b)
  | .read next, other => .read fun s => (next s).both other
  | .write s next, other => .write s (next.both other)
  | .pause next, other => other.untilPause fun rest => next.both rest

/-- Fibers that take turns, in their order in every round; the results are in that order too. -/
def all : List (Fiber σ α) → Fiber σ (List α)
  | [] => .done []
  | fiber :: rest => (fiber.both (all rest)).map fun (a, as) => a :: as

/-- Fibers one after the other. -/
def sequence : List (Fiber σ α) → Fiber σ (List α)
  | [] => .done []
  | fiber :: rest => fiber.bind fun a => (sequence rest).map (a :: ·)

/-- The result of a fiber and the state it leaves, when nothing else changes the state during its
pauses. -/
def run : Fiber σ α → σ → α × σ
  | .done a, s => (a, s)
  | .read next, s => (next s).run s
  | .write s next, _ => next.run s
  | .pause next, s => next.run s

/-! ## Going on -/

@[simp] theorem bind_done (fiber : Fiber σ α) : fiber.bind .done = fiber := by
  induction fiber with
  | done a => rfl
  | read next ih => exact congrArg read (funext ih)
  | write state next ih => exact congrArg (write state) ih
  | pause next ih => exact congrArg pause ih

theorem bind_assoc (fiber : Fiber σ α) (k : α → Fiber σ β) (l : β → Fiber σ γ) :
    (fiber.bind k).bind l = fiber.bind fun a => (k a).bind l := by
  induction fiber with
  | done a => rfl
  | read next ih => exact congrArg read (funext ih)
  | write state next ih => exact congrArg (write state) ih
  | pause next ih => exact congrArg pause ih

theorem both_done (a : α) (other : Fiber σ β) :
    (done a).both other = other.map fun b => (a, b) := rfl

/-! ## What each operation does to a run -/

@[simp] theorem run_done (a : α) (s : σ) : (Fiber.done a).run s = (a, s) := rfl

@[simp] theorem run_read (next : σ → Fiber σ α) (s : σ) : (read next).run s = (next s).run s := rfl

@[simp] theorem run_write (state : σ) (next : Fiber σ α) (s : σ) :
    (write state next).run s = next.run state := rfl

@[simp] theorem run_bind (fiber : Fiber σ α) (k : α → Fiber σ β) (s : σ) :
    (fiber.bind k).run s = (k (fiber.run s).1).run (fiber.run s).2 := by
  induction fiber generalizing s with
  | done a => rfl
  | read next ih => exact ih s s
  | write state next ih => exact ih state
  | pause next ih => exact ih s

@[simp] theorem run_map (f : α → β) (fiber : Fiber σ α) (s : σ) :
    (fiber.map f).run s = (f (fiber.run s).1, (fiber.run s).2) := by
  simp [map]

theorem run_sequence_cons (fiber : Fiber σ α) (rest : List (Fiber σ α)) (s : σ) :
    (sequence (fiber :: rest)).run s =
      ((fiber.run s).1 :: ((sequence rest).run (fiber.run s).2).1,
        ((sequence rest).run (fiber.run s).2).2) := by
  rw [sequence, run_bind, run_map]

end Fiber

end FeedGraph
