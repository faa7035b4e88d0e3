import Flowchart.Proofs.Assistant.Turns

/-!
# Turns that are closed at once

When nothing comes in between a turn's last step and its end, its result bears the number of the version that it shows.

* `Session.Answers`, `Session.answer_cases`: all that can come of a reply, if the turn is closed at once.
* `Session.answer_eq_done`, `Session.answer_eq_batch`, `Session.answer_overtaken`: what that says of the session.
* `Session.resolve_eq_ok`: the batch of a plan is committed and the turn closed.
-/

namespace Flowchart

namespace Session

variable {p : Planner} {s after : Session} {turn : PendingTurn} {reply : Reply} {plan : Plan} {result : TurnResult}
  {failure : Failure}

/-- What can come of a reply: a result that is remembered, a plan whose batch is still to be committed, or a failure. -/
inductive Answers (p : Planner) (s : Session) (turn : PendingTurn) (reply : Reply) :
    Except Failure (TurnResult ⊕ Plan) × Session → Prop where
  | done {draft : Draft} (receives : s.Receives p turn reply (.ok (.drafted draft))) :
      Answers p s turn reply (.ok (.inl (draft.finish s.timeline.latest)),
        s.remembering turn.message (draft.finish s.timeline.latest))
  | batch {plan : Plan} (receives : s.Receives p turn reply (.ok (.batch plan))) :
      Answers p s turn reply (.ok (.inr plan), s)
  | failed {failure : Failure} (receives : s.Receives p turn reply (.error failure)) :
      Answers p s turn reply (.error failure, s)

theorem answer_cases (p : Planner) (s : Session) (turn : PendingTurn) (reply : Reply) :
    s.Answers p turn reply ((answer p turn reply).out s) := by
  obtain ⟨received, out, receives⟩ := receive_cases p s turn reply
  unfold answer
  rw [Act.out_bind, out]
  rcases received with failure | ⟨draft⟩ | ⟨plan⟩
  · exact .failed receives
  · dsimp only
    rw [Act.out_bind_of_ok (close_out turn draft s)]
    exact .done receives
  · exact .batch receives

/-- A turn that is over with its reply has applied nothing. -/
theorem answer_eq_done (answered : (answer p turn reply).out s = (.ok (.inl result), after)) :
    after.timeline = s.timeline ∧ after.generation = s.generation ∧ result.applied = false := by
  have answers := answer_cases p s turn reply
  rw [answered] at answers
  cases answers with
  | done receives => exact ⟨by simp, by simp, by simp [receive_unapplied receives]⟩

/-- A turn that was not overtaken is remembered when it is over with its reply. -/
theorem answer_remembers (current : turn.generation = s.generation)
    (answered : (answer p turn reply).out s = (.ok (.inl result), after)) :
    after = s.remember turn.message result.explanation ∧ result.discarded = false := by
  have answers := answer_cases p s turn reply
  rw [answered] at answers
  cases answers with
  | done receives =>
    have kept := receive_kept current receives
    exact ⟨by simp [remembering, kept], by simp [kept]⟩

/-- A turn whose batch is still to be committed has not been overtaken, and the batch is sound. -/
theorem answer_eq_batch (answered : (answer p turn reply).out s = (.ok (.inr plan), after)) :
    after = s ∧ turn.generation = s.generation ∧ ∀ operation ∈ plan.operations, operation.Sound := by
  have answers := answer_cases p s turn reply
  rw [answered] at answers
  cases answers with
  | batch receives => exact ⟨rfl, (receive_current receives).1, receive_eq_batch receives⟩

theorem answer_eq_error (answered : (answer p turn reply).out s = (.error failure, after)) : after = s := by
  have answers := answer_cases p s turn reply
  rw [answered] at answers
  cases answers with
  | failed => rfl

/-- A turn that was overtaken is discarded and leaves the session as it was, unless the reply strains its reader. -/
theorem answer_overtaken (overtaken : turn.generation ≠ s.generation) (reply : Reply) :
    (∃ strain, p.plan reply = .error (.strained strain) ∧
        (answer p turn reply).out s = (.error strain.failure, s)) ∨
      (∀ strain, p.plan reply ≠ .error (.strained strain)) ∧
        (answer p turn reply).out s = (.ok (.inl (s.discarded.finish s.timeline.latest)), s) := by
  unfold answer
  obtain ⟨strain, strained, out⟩ | ⟨readable, out⟩ := receive_overtaken (p := p) overtaken reply
  · refine .inl ⟨strain, strained, ?_⟩
    rw [Act.out_bind, out]
  · refine .inr ⟨readable, ?_⟩
    rw [Act.out_bind_of_ok out]
    dsimp only
    rw [Act.out_bind_of_ok (close_out turn _ s)]
    rfl

/-- The batch of a plan is committed, and the turn is closed on what that has left. -/
theorem resolve_cases {r : Except Failure TurnResult} (resolved : (resolve p turn plan).out s = (r, after)) :
    (∃ failure, r = .error failure ∧ after = s) ∨
      ∃ draft mid, (conclude p turn plan).out s = (.ok draft, mid) ∧ r = .ok (draft.finish mid.timeline.latest) ∧
        after = mid.remembering turn.message (draft.finish mid.timeline.latest) := by
  obtain ⟨failure, failed, rfl⟩ | ⟨draft, mid, concluded, closed⟩ := Act.out_bind_eq resolved
  · exact .inl ⟨failure, rfl, conclude_eq_error failed⟩
  · rw [close_out] at closed
    cases closed
    exact .inr ⟨draft, mid, concluded, rfl, rfl⟩

theorem resolve_eq_error (resolved : (resolve p turn plan).out s = (.error failure, after)) : after = s := by
  obtain ⟨_, -, same⟩ | ⟨_, _, -, impossible, -⟩ := resolve_cases resolved
  · exact same
  · cases impossible

/-- A turn with a plan applies it to the timeline as a commit does, or leaves the timeline as it was. -/
theorem resolve_eq_ok (resolved : (resolve p turn plan).out s = (.ok result, after)) :
    (after.timeline = s.timeline ∧ result.applied = false) ∨
      turn.base = s.timeline.latest ∧ result.applied = true ∧
        s.timeline.Advances after.timeline result.document ∧ result.version = some (turn.base + 1 : Int) ∧
        ∃ made, p.engine.apply s.timeline.current plan.operations = .ok made ∧ result.document = made.document := by
  obtain ⟨_, impossible, -⟩ | ⟨draft, mid, concluded, same, rfl⟩ := resolve_cases resolved
  · cases impossible
  cases same
  rw [remembering_timeline]
  obtain ⟨-, -, -, ⟨rfl, idle⟩ | ⟨based, advances, applied, numbered, version, made, settled, document⟩⟩ :=
    conclude_eq_ok concluded
  · exact .inl ⟨rfl, by simp [idle]⟩
  · rw [numbered]
    exact .inr ⟨based, applied, advances, version, made, settled, document⟩

/-- A turn that has committed its batch is remembered. -/
theorem resolve_remembers (resolved : (resolve p turn plan).out s = (.ok result, after)) :
    after = { s with timeline := after.timeline }.remember turn.message result.explanation ∧
      result.discarded = false := by
  obtain ⟨_, impossible, -⟩ | ⟨draft, mid, concluded, same, rfl⟩ := resolve_cases resolved
  · cases impossible
  cases same
  obtain ⟨only, -, kept, -⟩ := conclude_eq_ok concluded
  refine ⟨?_, by simp [kept]⟩
  rw [remembering_timeline, ← only]
  simp [remembering, kept]

theorem resolve_generation (resolved : (resolve p turn plan).out s = (.ok result, after)) :
    after.generation = s.generation := by
  rw [(resolve_remembers resolved).1]
  rfl

end Session

end Flowchart
