import Flowchart.Proofs.Assistant.Closing
import Flowchart.Proofs.Versions.Audit

/-!
# What the results of turns say

* `Engine.Reverts`, `Engine.Checks`: what an engine does with batches that it does not commit, and with those that
  it commits. Both hold of the engines over a catalog.
* `TurnResult.Tells`: what the result of a turn that was closed at once and not given up says of the timeline.
* `TurnResult.RecordedIn`, `Draft.Shows`: the version that a result names is the flowchart that it holds, or the result
  still has to be numbered and holds the latest one.
* `TurnResult.endings`: the ways in which a turn can have ended. `Planner.commitPlan_endings`,
  `Session.receive_endings`: it has ended in one of them, unless its plan is without operations.
-/

namespace Flowchart

/-! ### Engines -/

/-- A batch that is not committed gives its flowchart back. -/
def Engine.Reverts (engine : Engine) : Prop :=
  ∀ {d : Document} {operations : List Operation} {o : Outcome}, engine.apply d operations = .ok o →
    o.committed = false → o.document = d

/-- A batch that is committed has left no errors. -/
def Engine.Checks (engine : Engine) : Prop :=
  ∀ {d : Document} {operations : List Operation} {o : Outcome}, engine.apply d operations = .ok o →
    o.committed = true → o.report.errors = []

theorem Engine.batches_reverts (catalog : Catalog) (annotates : Bool) : (batches catalog annotates).Reverts := by
  intro d operations o done rejected
  obtain ⟨e, applied, -, -, -, -, document⟩ := applyBatch_eq_ok (batches_eq_ok_iff.mp done)
  rw [document, rejected]
  rfl

theorem Engine.batches_checks (catalog : Catalog) (annotates : Bool) : (batches catalog annotates).Checks := by
  intro d operations o done settled
  obtain ⟨e, applied, -, -, -, committed, -⟩ := applyBatch_eq_ok (batches_eq_ok_iff.mp done)
  rw [settled] at committed
  rw [Report.errors_eq_nil_iff, ← Report.hasErrors_eq_false_iff]
  simpa using committed.symm

theorem Engine.standard_reverts (catalog : Catalog) : (Engine.standard catalog).Reverts :=
  batches_reverts catalog true

/-! ### What a result says of a timeline -/

variable {p : Planner}

/-- The outcome of a batch is the engine's, with the latest version of the timeline that it leaves. -/
theorem Timeline.commit_outcome {engine : Engine} {t after : Timeline} {base : Int} {operations : List Operation}
    {origin : String} {o : Outcome} (done : (commit engine base operations origin).out t = (.ok o, after)) :
    ∃ made, engine.apply t.current operations = .ok made ∧ o = { made with version := some (after.latest : Int) } := by
  by_cases based : base = t.latest
  · subst based
    cases applied : engine.apply t.current operations with
    | error failure =>
      rw [commit_failed applied] at done
      cases done
    | ok made =>
      cases committed : made.committed with
      | true =>
        rw [commit_committed applied committed] at done
        cases done
        exact ⟨made, rfl, rfl⟩
      | false =>
        rw [commit_rejected applied committed] at done
        cases done
        exact ⟨made, rfl, rfl⟩
  · rw [commit_stale engine based] at done
    cases done

/-- The outcome of a batch shows the latest version of the timeline that it leaves. -/
theorem Timeline.commit_latest {engine : Engine} (reverts : engine.Reverts) {t after : Timeline} {base : Int}
    {operations : List Operation} {origin : String} {o : Outcome}
    (done : (commit engine base operations origin).out t = (.ok o, after)) :
    o.version = some (after.latest : Int) ∧ o.document = after.current := by
  obtain ⟨-, made, applied, document, committed, effect⟩ := commit_eq_ok done
  obtain ⟨_, -, same⟩ := commit_outcome done
  refine ⟨by rw [same], ?_⟩
  split at effect
  next => exact effect.1.current.symm
  next rejected =>
    have kept : made.document = t.current := reverts applied (committed ▸ eq_false_of_ne_true rejected)
    rw [document, kept, effect]

/-- A turn that was not given up tells of the latest version of a timeline, or, if its plan is without
operations, of the version that it began on. -/
inductive TurnResult.Tells (result : TurnResult) (t : Timeline) (base : Nat) : Prop where
  | settled (decided : result.applied = true ∨ result.rejection.isSome = true)
      (version : result.version = some (t.latest : Int)) (document : result.document = t.current)
  | idle (applied : result.applied = false) (rejection : result.rejection = none)
      (version : result.version = some (base : Int)) (document : t.get base = .ok result.document)

/-- The version that the result names is in the timeline, and is the flowchart that the result holds. -/
def TurnResult.RecordedIn (result : TurnResult) (t : Timeline) : Prop :=
  ∃ version : Nat, result.version = some (version : Int) ∧ t.at? version = some result.document

theorem TurnResult.Tells.recorded {result : TurnResult} {t : Timeline} {base : Nat} (tells : result.Tells t base) :
    result.RecordedIn t := by
  cases tells with
  | settled _ version document =>
    rw [TurnResult.RecordedIn, document]
    exact ⟨t.latest, version, t.at?_latest⟩
  | idle _ _ version document =>
    exact ⟨base, version, Timeline.get_natCast_eq_ok_iff.mp document⟩

/-- The result of a turn that is still to be closed names a version of the timeline and holds the flowchart of it, or it
holds the latest flowchart. -/
inductive Draft.Shows (t : Timeline) : Draft → Prop where
  | numbered {result : TurnResult} (recorded : result.RecordedIn t) : Shows t (.numbered result)
  | unnumbered {result : TurnResult} (document : result.document = t.current) (idle : result.applied = false) :
      Shows t (.unnumbered result)

namespace Planner

variable {plan : Plan} {t after : Timeline} {base : Nat} {draft : Draft}

/-- The result of a plan, if the turn is closed at once. -/
theorem commitPlan_tells (reverts : p.engine.Reverts)
    (done : (p.commitPlan plan base).out t = (.ok draft, after)) : (draft.finish after.latest).Tells after base := by
  have cases := p.commitPlan_cases plan t base
  rw [done] at cases
  cases cases with
  | idle _ found => exact .idle rfl rfl rfl found
  | @settled _ o _ committed =>
    obtain ⟨version, document⟩ := Timeline.commit_latest reverts committed
    refine .settled ?_ version document
    cases applied : o.committed with
    | true => exact .inl applied
    | false => exact .inr (by simp [Draft.finish, resultOf, Outcome.rejection?, applied])
  | refused _ _ told =>
    obtain ⟨report, -, rfl⟩ := refused_cases told
    exact .settled (.inr rfl) rfl rfl

theorem commitPlan_shows (reverts : p.engine.Reverts)
    (done : (p.commitPlan plan base).out t = (.ok draft, after)) : draft.Shows after := by
  have tells := commitPlan_tells reverts done
  have cases := p.commitPlan_cases plan t base
  rw [done] at cases
  cases cases with
  | idle => exact .numbered tells.recorded
  | settled => exact .numbered tells.recorded
  | refused _ _ told =>
    obtain ⟨report, -, rfl⟩ := refused_cases told
    exact .unnumbered rfl rfl

end Planner

namespace Session

variable {s after : Session} {turn : PendingTurn} {reply : Reply} {plan : Plan} {draft : Draft} {result : TurnResult}

theorem receive_tells (reverts : p.engine.Reverts) (current : turn.generation = s.generation)
    (receives : s.Receives p turn reply (.ok (.drafted draft))) :
    (draft.finish s.timeline.latest).Tells s.timeline turn.base := by
  cases receives with
  | overtaken _ overtaken => exact absurd current overtaken
  | malformed => exact .settled (.inr rfl) rfl rfl
  | idle _ _ _ done => exact Planner.commitPlan_tells reverts done

theorem receive_shows (reverts : p.engine.Reverts) (receives : s.Receives p turn reply (.ok (.drafted draft))) :
    draft.Shows s.timeline := by
  cases receives with
  | overtaken => exact .unnumbered rfl rfl
  | malformed => exact .unnumbered rfl rfl
  | idle _ _ _ done => exact Planner.commitPlan_shows reverts done

theorem conclude_shows (reverts : p.engine.Reverts)
    (concluded : (conclude p turn plan).out s = (.ok draft, after)) : draft.Shows after.timeline :=
  Planner.commitPlan_shows reverts (commitPlan_of_conclude concluded).1

theorem answer_tells (reverts : p.engine.Reverts) (current : turn.generation = s.generation)
    (answered : (answer p turn reply).out s = (.ok (.inl result), after)) : result.Tells after.timeline turn.base := by
  have answers := answer_cases p s turn reply
  rw [answered] at answers
  cases answers with
  | done receives =>
    rw [remembering_timeline]
    exact receive_tells reverts current receives

theorem resolve_tells (reverts : p.engine.Reverts)
    (resolved : (resolve p turn plan).out s = (.ok result, after)) : result.Tells after.timeline turn.base := by
  obtain ⟨_, impossible, -⟩ | ⟨draft, mid, concluded, same, rfl⟩ := resolve_cases resolved
  · cases impossible
  cases same
  rw [remembering_timeline]
  exact Planner.commitPlan_tells reverts (commitPlan_of_conclude concluded).1

end Session

/-! ### How a turn has ended -/

/-- The ways in which a turn can end: applied, rejected or given up. -/
def TurnResult.endings (result : TurnResult) : List Bool :=
  [result.applied, result.rejection.isSome, result.discarded]

/-- A turn that was applied and ended in one way only was neither rejected nor given up. -/
theorem TurnResult.alone_of_applied {result : TurnResult} (once : result.endings.count true ≤ 1)
    (applied : result.applied = true) : result.rejection = none ∧ result.discarded = false := by
  rw [endings, applied] at once
  have others : List.count true [result.rejection.isSome, result.discarded] = 0 := by
    simpa using once
  simpa [List.count_eq_zero] using others

namespace Planner

variable {plan : Plan} {t after : Timeline} {base : Nat} {draft : Draft}

/-- A plan with operations is either applied or rejected. -/
theorem commitPlan_endings (done : (p.commitPlan plan base).out t = (.ok draft, after)) :
    draft.result.endings.count true = if plan.operations.isEmpty then 0 else 1 := by
  have cases := p.commitPlan_cases plan t base
  rw [done] at cases
  cases cases with
  | idle empty =>
    rw [empty]
    rfl
  | @settled _ o filled =>
    rw [filled]
    cases committed : o.committed with
    | true => simp [Draft.result, TurnResult.endings, resultOf, Outcome.rejection?, committed]
    | false => simp [Draft.result, TurnResult.endings, resultOf, Outcome.rejection?, committed]
  | refused filled _ told =>
    obtain ⟨report, -, rfl⟩ := refused_cases told
    rw [filled]
    rfl

/-- No plan is applied that leaves errors. -/
theorem commitPlan_checks (checks : p.engine.Checks) (done : (p.commitPlan plan base).out t = (.ok draft, after))
    (applied : draft.result.applied = true) : draft.result.report.errors = [] := by
  have cases := p.commitPlan_cases plan t base
  rw [done] at cases
  cases cases with
  | idle => cases applied
  | settled _ committed =>
    obtain ⟨made, settled, same⟩ := Timeline.commit_outcome committed
    cases same
    exact checks settled applied
  | refused _ _ told =>
    obtain ⟨report, -, rfl⟩ := refused_cases told
    cases applied

end Planner

namespace Session

variable {s after : Session} {turn : PendingTurn} {reply : Reply} {plan : Plan} {draft : Draft}

/-- A turn that is drafted with its reply has ended in one way, or the reply was a plan without operations. -/
theorem receive_endings (receives : s.Receives p turn reply (.ok (.drafted draft))) :
    draft.result.endings.count true = 1 ∨ draft.result.endings.count true = 0 ∧ ∃ response plan,
      answerOf p.limit reply = .ok response ∧ Plan.parse response = .ok plan ∧ plan.operations = [] := by
  cases receives with
  | overtaken => exact .inl rfl
  | malformed => exact .inl rfl
  | @idle plan _ _ given _ done =>
    have endings := Planner.commitPlan_endings done
    split at endings
    next empty =>
      obtain ⟨response, answered, parsed⟩ := Planner.plan_eq_ok given
      exact .inr ⟨endings, response, plan, answered, parsed, by simpa using empty⟩
    next => exact .inl endings

theorem conclude_endings (filled : plan.operations.isEmpty = false)
    (concluded : (conclude p turn plan).out s = (.ok draft, after)) : draft.result.endings.count true = 1 := by
  rw [Planner.commitPlan_endings (commitPlan_of_conclude concluded).1, filled]
  rfl

theorem conclude_checks (checks : p.engine.Checks) (concluded : (conclude p turn plan).out s = (.ok draft, after))
    (applied : draft.result.applied = true) : draft.result.report.errors = [] :=
  Planner.commitPlan_checks checks (commitPlan_of_conclude concluded).1 applied

end Session

end Flowchart
