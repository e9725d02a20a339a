import FeedGraph.Proofs.Execution.Answers
import FeedGraph.Proofs.Execution.Frames

/-!
# Scheduling: waiting does not change the answer

Where the outcome of a resolver depends on the object and the arguments alone, it makes no
difference when it comes. `ResolverTable.Settled` says that the resolvers of a table are of that
kind: each may be ready or pause as often as it likes, differently each time it is asked, and may do
to the state what it likes, but what it ends with is settled.

The main statement is `Executor.execute_settled`: then the response, with the order of its members,
items and errors, is that of `Evaluation.response`, which takes one field after the other, each with
all that is below it, and knows of no states and no pauses.
-/

namespace FeedGraph

namespace ResolverTable

variable {σ : Type}

/-- Whatever states a resolver finds, when it is asked and while it is waited for, it ends with the
outcome for its object and arguments. It may change the state as it likes; no other resolver of such
a table depends on it. -/
def Settled (table : ResolverTable σ) (outcomes : Outcomes) : Prop :=
  ∀ type field parent arguments state,
    (table.resolve type field parent arguments state).1.fiber.Ends
      (· = outcomes type field parent arguments)

/-- A resolver whose outcomes are given. The state counts what was asked before; by this count a
schedule tells whether the outcome is there at once or after so many rounds. So a schedule may treat
equal requests differently. -/
def scheduledResolver (outcome : Json → Members Value → Outcome) (rounds? : Nat → Option Nat) :
    Resolver Nat :=
  fun parent arguments count =>
    (match rounds? count with
      | none => .ready (outcome parent arguments)
      | some rounds => .deferred (.delay rounds (.done (outcome parent arguments))), count + 1)

/-- Such resolvers for some fields. -/
def scheduled (fields : List (String × String)) (outcomes : Outcomes)
    (rounds? : Nat → Option Nat) : ResolverTable Nat :=
  ⟨fields.map fun key =>
    ⟨key.1, key.2, scheduledResolver (outcomes key.1 key.2) rounds?⟩⟩

theorem get?_scheduled (fields : List (String × String)) (outcomes : Outcomes)
    (rounds? : Nat → Option Nat) (type field : String) :
    (scheduled fields outcomes rounds?).get? type field =
      if (type, field) ∈ fields then some (scheduledResolver (outcomes type field) rounds?)
      else none := by
  induction fields with
  | nil => rfl
  | cons key rest ih =>
    by_cases hkey : key = (type, field)
    · subst hkey
      simp [scheduled, get?]
    · have hne : (key.1 == type && key.2 == field) = false := by
        rw [Bool.and_eq_false_imp]
        simp only [beq_iff_eq, beq_eq_false_iff_ne]
        exact fun htype hfield => hkey (Prod.ext htype hfield)
      simp only [scheduled, get?] at ih
      simp only [scheduled, get?, List.map_cons, List.find?_cons, hne, ih, List.mem_cons,
        Ne.symm hkey, false_or]

/-- On whatever schedule, these resolvers are settled, for neither the count nor the rounds have a
part in the outcome. -/
theorem settled_scheduled (fields : List (String × String)) (outcomes : Outcomes)
    (rounds? : Nat → Option Nat) :
    (scheduled fields outcomes rounds?).Settled fun type field parent arguments =>
      if (type, field) ∈ fields then outcomes type field parent arguments
      else memberOutcome field parent := by
  intro type field parent arguments count
  rw [resolve, get?_scheduled]
  by_cases h : (type, field) ∈ fields
  · have hdone : (Fiber.done (outcomes type field parent arguments) : Fiber Nat Outcome).Ends
        (· = outcomes type field parent arguments) := Fiber.ends_done rfl
    simp only [h, if_true, scheduledResolver]
    cases rounds? count with
    | none => exact hdone
    | some rounds => exact Fiber.ends_delay hdone rounds
  · simp only [h, if_false]
    exact Fiber.ends_done rfl

end ResolverTable

namespace Executor

variable {σ : Type}

/-- However a field ends, if its resolvers are settled: this is `Executor.endsAmong_field` for
states of any kind. -/
theorem ends_field (executor : Executor σ) {outcomes : Outcomes}
    (hsettled : executor.resolvers.Settled outcomes) (asked : PlannedField) (type : String)
    (parent : Json) (path : Path) :
    (executor.field type parent path asked).Ends
      (· = Evaluation.field executor.schema outcomes.of type parent path asked) := by
  -- in states of any kind whatsoever
  have hasks : asked.Throughout (executor.AsksAmong (fun _ => True) outcomes) type :=
    .of_forall (fun container field => .inr fun parent arguments state _ =>
      ⟨trivial, Fiber.ends_iff.mp (hsettled container field.name parent arguments state)⟩) type asked
  exact Fiber.ends_iff.mpr (endsAmong_field executor hasks parent path)

/-- If the outcomes of resolvers depend on objects and arguments alone, then so does the response.
However often each of them pauses whenever it is asked, and whatever it does to the state, the
response is the one that comes of taking field after field. -/
theorem execute_settled (executor : Executor σ) {outcomes : Outcomes}
    (hsettled : executor.resolvers.Settled outcomes) (plan : Plan) (state : σ) :
    ((executor.execute plan).run state).1 =
      Evaluation.response executor.schema outcomes.of plan := by
  have hfields : ∀ type parent path, ∀ field ∈ plan.fields,
      (executor.field type parent path field).Ends
        (· = Evaluation.field executor.schema outcomes.of type parent path field) :=
    fun type parent path field _ => ends_field executor hsettled field type parent path
  rw [execute, fields_eq_map, Fiber.run_map, Evaluation.response, Evaluation.object]
  cases plan.kind with
  | mutation => rw [(Fiber.ends_sequence_eq (hfields _ _ _)).run state]
  | _ => rw [(Fiber.ends_all_eq (hfields _ _ _)).run state]

end Executor

namespace Concerts

/-- The gala for every concert, and no name for any venue. -/
def outcomes : Outcomes := fun type field parent _ =>
  match type, field with
  | "Query", "concert" => .ok gala
  | "Venue", "name" => .error ⟨"burnt down"⟩
  | _, _ => memberOutcome field parent

/-- The concert is there after three rounds, the hall under its first name after two, and under its
second name at once. -/
def late : Executor Nat where
  schema := schema
  resolvers := .scheduled [("Query", "concert"), ("Venue", "name")] outcomes fun count =>
    if count < 2 then some (3 - count) else none

/-- The outcomes of the table: of the two fields that are scheduled, and of members. -/
abbrev lateOutcomes : Outcomes := fun type field parent arguments =>
  if (type, field) ∈ [("Query", "concert"), ("Venue", "name")] then
    outcomes type field parent arguments
  else memberOutcome field parent

/-- What is answered late is what the outcomes say. Three inquiries end in different rounds here. -/
theorem late_settled : late.resolvers.Settled lateOutcomes ∧
    ((late.execute plan).run 0).1 = Evaluation.response late.schema lateOutcomes.of plan := by
  have hsettled : late.resolvers.Settled lateOutcomes :=
    ResolverTable.settled_scheduled [("Query", "concert"), ("Venue", "name")] outcomes _
  exact ⟨hsettled, Executor.execute_settled late hsettled plan 0⟩

/-- The errors come in the order of the document, and not in the order of time. -/
example : ((late.execute plan).run 0).1.errors.map (·.path) =
    [[.field "c", .field "venue", .field "hall"], [.field "c", .field "venue", .field "name"],
      [.field "c", .field "acts", .index 1]] := by
  rfl

end Concerts

end FeedGraph
