import FeedGraph.Proofs.Feed.Asking
import FeedGraph.Proofs.Feed.Writes

/-!
# Effects: what requests change

There are two things that a request can change: what is stored, and what was asked for at the
catalog. The main statement is `Feed.reply_confined`, about any body in any state. A body that is no
request, and a request that is rejected, change neither; a query stores nothing; and the catalog is
asked by queries only, and only if they select films of their root.

For queries, this is about all that can be selected, on every level. Fields for films send one
request each and leave everything else as it is (`Feed.answer_turns`); all other resolvers that
queries lead to only read (`Feed.settledAmong_store`, through `Feed.answer_without_films`).
Mutations perform the actions of their fields (`Feed.run_mutation`), and no action sends anything
(`FeedState.sent_after`).
-/

namespace FeedGraph

namespace Feed

variable {complain : String → Complaint} {catalog : Catalog} {depthLimit : Nat}
  {state : FeedState}

section

variable {request : Request} {plan : Plan}

/-- A query stores nothing, and no id is used up by it: it ends among the states
`FeedState.OnlySent`. -/
theorem answer_query (hplan : (engine complain catalog depthLimit).plan request = .ok plan)
    (hkind : plan.kind = .query) (state : FeedState) :
    state.OnlySent (((engine complain catalog depthLimit).answer request).run state).2 :=
  (answer_turns hplan hkind state).2

/-- A request that has been sent to the catalog comes from a query for films. Mutations send nothing
(`FeedState.sent_after`), and a query that has no field for films leads to the state in which it
started (`answer_without_films`). -/
theorem film_of_sent (hplan : (engine complain catalog depthLimit).plan request = .ok plan)
    (hsent : (((engine complain catalog depthLimit).answer request).run state).2.sent ≠ state.sent) :
    plan.kind = .query ∧ ∃ field ∈ plan.fields, IsFilm field := by
  rcases kind_of_plan hplan with hkind | hkind
  · refine ⟨hkind, ?_⟩
    by_contra hfilms
    push Not at hfilms
    rw [(answer_without_films hplan hkind hfilms state).2] at hsent
    exact hsent rfl
  · rw [run_mutation hplan hkind] at hsent
    exact absurd (FeedState.sent_after state _) hsent

end

/-- Whatever comes as a body: if it is no request or one that is rejected, the state stays as it is,
and what is rejected is answered with one error and no data. Accepted queries store nothing, and
only if they select films is the catalog asked. There is no hypothesis, since the two ways of not
being accepted are cases of the statement. -/
theorem reply_confined (complain : String → Complaint) (catalog : Catalog) (depthLimit : Nat)
    (path : String) (body : Json) (state : FeedState) :
    let (reply, last) := Endpoint.reply ⟨path, engine complain catalog depthLimit⟩ body state
    match Request.ofJson? body with
    | none => reply = .empty 400 ∧ last = state
    | some request =>
      match (engine complain catalog depthLimit).plan request with
      | .error _ => (∃ error, reply = .ofResponse ⟨none, [error]⟩) ∧ last = state
      | .ok plan =>
        (plan.kind = .query → state.OnlySent last) ∧
          (last.sent ≠ state.sent → plan.kind = .query ∧ ∃ field ∈ plan.fields, IsFilm field) := by
  cases hbody : Request.ofJson? body with
  | none =>
    have hreply : Endpoint.reply ⟨path, engine complain catalog depthLimit⟩ body state =
        (.empty 400, state) := by
      rw [Endpoint.reply, hbody]
    rw [hreply]
    exact ⟨rfl, rfl⟩
  | some request =>
    have hreply : Endpoint.reply ⟨path, engine complain catalog depthLimit⟩ body state =
        (.ofResponse (((engine complain catalog depthLimit).answer request).run state).1,
          (((engine complain catalog depthLimit).answer request).run state).2) := by
      rw [Endpoint.reply, hbody]
    rw [hreply]
    dsimp only
    cases hplan : (engine complain catalog depthLimit).plan request with
    | error rejection =>
      have hanswer : (engine complain catalog depthLimit).answer request =
          .done (.ofRejection rejection) := by
        rw [Engine.answer, hplan]
      rw [hanswer]
      exact ⟨⟨_, rfl⟩, rfl⟩
    | ok plan => exact ⟨fun hkind => answer_query hplan hkind state, film_of_sent hplan⟩

end Feed

end FeedGraph
