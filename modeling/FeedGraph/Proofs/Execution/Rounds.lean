import FeedGraph.Proofs.Execution.Turns

/-!
# Rounds: turns, one round after the other

Fibers that take turns do so in rounds. In each of them, every fiber goes on to its next pause or to
its end, one fiber after the other in their order; who has ended has nothing left to do.

`Fiber.advance` is what one fiber does in a round, and `Fiber.advanceAll` is a round of several
fibers. The main statement is `Fiber.run_advanceAll`: a run of fibers that take turns is one round
of them, and then a run of what is left. So what holds of a run can be shown round by round, with an
invariant that relates what is left of each fiber to the state.

Often one round is enough: a fiber does all that depends on the state before its first pause. For
such fibers the results are those of one fiber after the other (`Fiber.run_all_along`).
-/

namespace FeedGraph

namespace Fiber

variable {σ α β γ : Type}

/-- Goes on to the next pause or to the end: what is left to do, and the state. A pause is used up
by it, an end is not. -/
def advance : Fiber σ α → σ → Fiber σ α × σ
  | .done a, s => (.done a, s)
  | .read next, s => (next s).advance s
  | .write state next, _ => next.advance state
  | .pause next, s => (next, s)

/-- A round: each fiber, in their order, goes on to its next pause or to its end, from the state
that the one before it has left. -/
def advanceAll : List (Fiber σ α) → σ → List (Fiber σ α) × σ
  | [], s => ([], s)
  | fiber :: rest, s =>
    let (left, s) := fiber.advance s
    let (others, s) := advanceAll rest s
    (left :: others, s)

theorem advanceAll_cons (fiber : Fiber σ α) (rest : List (Fiber σ α)) (s : σ) :
    advanceAll (fiber :: rest) s =
      ((fiber.advance s).1 :: (advanceAll rest (fiber.advance s).2).1,
        (advanceAll rest (fiber.advance s).2).2) := rfl

/-- A run goes on from where a round has led, since a run takes no notice of pauses. -/
theorem run_advance (fiber : Fiber σ α) (s : σ) :
    (fiber.advance s).1.run (fiber.advance s).2 = fiber.run s := by
  induction fiber generalizing s with
  | done a => rfl
  | read next ih => exact ih s s
  | write state next ih => exact ih state
  | pause next _ => rfl

/-- A changed result does not change a round. -/
theorem advance_map (f : α → β) (fiber : Fiber σ α) (s : σ) :
    (fiber.map f).advance s = ((fiber.advance s).1.map f, (fiber.advance s).2) := by
  induction fiber generalizing s with
  | done a => rfl
  | read next ih => exact ih s s
  | write state next ih => exact ih state
  | pause next _ => rfl

/-- What pauses at the end of its round goes on from there with what is left. -/
theorem advance_untilPause (resume : Fiber σ α → Fiber σ β) (fiber : Fiber σ α) (s : σ) :
    (fiber.untilPause resume).advance s = (resume (fiber.advance s).1, (fiber.advance s).2) := by
  induction fiber generalizing s with
  | done a => rfl
  | read next ih => exact ih s s
  | write state next ih => exact ih state
  | pause next _ => rfl

/-- Two fibers that take turns do so in each round, the second from the state that the first leaves.
This is what `Fiber.both` does, said without looking inside of the fibers. -/
theorem advance_both (fiber : Fiber σ α) (other : Fiber σ β) (s : σ) :
    (fiber.both other).advance s =
      ((fiber.advance s).1.both (other.advance (fiber.advance s).2).1,
        (other.advance (fiber.advance s).2).2) := by
  induction fiber generalizing s with
  | done a => exact advance_map _ other s
  | read next ih => exact ih s s
  | write state next ih => exact ih state
  | pause next _ => exact advance_untilPause _ other s

/-- So do the fibers of a list. -/
theorem advance_all (fibers : List (Fiber σ α)) (s : σ) :
    (all fibers).advance s = (all (advanceAll fibers s).1, (advanceAll fibers s).2) := by
  induction fibers generalizing s with
  | nil => rfl
  | cons fiber rest ih => rw [all, advance_map, advance_both, ih, advanceAll_cons, all]

/-- A run of fibers that take turns is a round of them, and then a run of what is left. Every proof
about rounds goes from one to the next by this. -/
theorem run_advanceAll (fibers : List (Fiber σ α)) (s : σ) :
    (all fibers).run s = (all (advanceAll fibers s).1).run (advanceAll fibers s).2 := by
  rw [← run_advance, advance_all]

/-- Nothing is left of fibers that have all ended. -/
theorem all_done (results : List α) :
    all (results.map done) = (done results : Fiber σ (List α)) := by
  induction results with
  | nil => rfl
  | cons a rest ih =>
    rw [List.map_cons, all, ih, both_done]
    rfl

/-! ## What is settled in the first round -/

section

variable {states : σ → Prop}

/-- A round leads from a state of a kind to another one, and what is left ends as the whole does. So
a fiber of which this holds may be followed for some rounds and then be left to itself. -/
theorem EndsAmong.advance {P : α → Prop} {fiber : Fiber σ α} (h : fiber.EndsAmong states P) {s : σ}
    (hs : states s) : (fiber.advance s).1.EndsAmong states P ∧ states (fiber.advance s).2 := by
  induction fiber generalizing s with
  | done a => exact ⟨h, hs⟩
  | read next ih => exact ih s (h s hs) hs
  | write state next ih => exact ih h.2 h.1
  | pause next _ => exact ⟨h, hs⟩

/-- In turns, fibers end with the list of their results, if each of them does with its own
(`endsAmong_both`, once for each fiber). -/
theorem endsAmong_all_of_forall₂ {fibers : List (Fiber σ α)} {results : List α}
    (h : List.Forall₂ (fun fiber result => fiber.EndsAmong states (· = result)) fibers results) :
    (all fibers).EndsAmong states (· = results) := by
  induction h with
  | nil => exact endsAmong_done rfl
  | cons hfirst _ ih =>
    refine endsAmong_map (endsAmong_both hfirst ih) ?_
    rintro ⟨_, _⟩ ⟨rfl, rfl⟩
    rfl

/-- What comes of items one after the other, each in the state that those before it lead to. It is
what a round amounts to for fibers that do all that matters in it. -/
def along (next : σ → γ → σ) (result : σ → γ → α) : List γ → σ → List α
  | [], _ => []
  | item :: rest, s => result s item :: along next result rest (next s item)

/-- With a name for each item, no two of them the same, that is one result for each item: in the
state that those in front of the first item of the name lead to. -/
theorem along_eq_map {κ : Type} [DecidableEq κ] (name : γ → κ) {next : σ → γ → σ}
    {result : σ → γ → α} {items : List γ} (hnames : (items.map name).Nodup) (s : σ) :
    along next result items s = items.map fun item =>
      result ((items.takeWhile (name · ≠ name item)).foldl next s) item := by
  induction items generalizing s with
  | nil => rfl
  | cons first rest ih =>
    rw [List.map_cons, List.nodup_cons] at hnames
    rw [along, ih hnames.2, List.map_cons, List.takeWhile_cons_of_neg (by simp), List.foldl_nil]
    refine congrArg _ (List.map_congr_left fun item hmem => ?_)
    have hne : name first ≠ name item := fun heq => hnames.1 (heq ▸ List.mem_map_of_mem hmem)
    rw [List.takeWhile_cons_of_pos (by simpa using hne), List.foldl_cons]

/-- Fibers for items, of which each is settled in its first round: from a state of a kind this leads
to a next one, and what is left then ends with a result, whatever states of the kind it finds. In
turns, the results are those of one item after the other. The states that fibers find when they are
asked for the first time matter, since the induction is on the round (`advanceAll`); those that they
find later do not. -/
theorem run_all_along {items : List γ} {fiber : γ → Fiber σ α} {next : σ → γ → σ}
    {result : σ → γ → α}
    (h : ∀ item ∈ items, ∀ s, states s → states (next s item) ∧
      ((fiber item).advance s).2 = next s item ∧
      ((fiber item).advance s).1.EndsAmong states (· = result s item))
    {s : σ} (hs : states s) :
    ((all (items.map fiber)).run s).1 = along next result items s ∧
      states ((all (items.map fiber)).run s).2 := by
  have hround : List.Forall₂ (fun fiber result => fiber.EndsAmong states (· = result))
      (advanceAll (items.map fiber) s).1 (along next result items s) ∧
        states (advanceAll (items.map fiber) s).2 := by
    induction items generalizing s with
    | nil => exact ⟨.nil, hs⟩
    | cons item rest ih =>
      obtain ⟨hstates, hnext, hends⟩ := h item List.mem_cons_self s hs
      obtain ⟨hrest, hlast⟩ := ih (fun other hother => h other (List.mem_cons_of_mem _ hother)) hstates
      rw [List.map_cons, advanceAll_cons, hnext]
      exact ⟨.cons hends hrest, hlast⟩
  rw [run_advanceAll]
  exact (endsAmong_all_of_forall₂ hround.1).run hround.2

end

end Fiber

end FeedGraph
