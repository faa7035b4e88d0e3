import Flowchart.Proofs.Assistant.Closing
import Flowchart.Proofs.Versions.Order

/-!
# Turns with and without a session

A turn may be run on a flowchart alone, or in a session that was opened for it.

* `TurnResult.Alike`: two results say the same, their versions and findings aside.
* `Planner.commitPlan_start`: a plan comes to the same on a flowchart and on a timeline that starts with it.
* `Session.finish_of_plan`, `Session.finish_of_noPlan`: what comes of a whole turn that was not overtaken.
* `chat_alike`: so does a whole turn. Only of an answer that is no plan the session does not say what is
  wrong with the flowchart.
-/

namespace Flowchart

/-- Two results say the same of all but the version and the findings. -/
structure TurnResult.Alike (r other : TurnResult) : Prop where
  explanation : r.explanation = other.explanation
  document : r.document = other.document
  applied : r.applied = other.applied
  operations : r.operations = other.operations
  rejection : r.rejection = other.rejection
  discarded : r.discarded = other.discarded

/-- The number of the version is no difference. -/
theorem TurnResult.Alike.finish {r : TurnResult} {draft : Draft} (alike : r.Alike draft.result) (latest : Nat) :
    r.Alike (draft.finish latest) := by
  cases draft with
  | numbered result => exact alike
  | unnumbered result => exact { alike with }

/-- The assistant has answered in time, but not with a plan. -/
def Reply.IsMalformed (limit : Float) (reply : Reply) : Prop :=
  ∃ response e, answerOf limit reply = .ok response ∧ Plan.parse response = .error e

/-- A session that is opened for a flowchart, with what was said before. -/
def Session.fresh (d : Document) (version : Nat) (conversation : List Message) : Session :=
  { timeline := .start d version, conversation }

/-- A report without findings is the empty one. -/
theorem Report.eq_empty_iff (r : Report) : r = {} ↔ r.isClean = true := by
  obtain ⟨findings⟩ := r
  simp [Report.isClean]

namespace Planner

variable {p : Planner} {plan : Plan} {d : Document} {version : Nat}

/-- What came of a batch is reported as it is, whatever version it has got. -/
theorem resultOf_alike (plan : Plan) (o : Outcome) (version : Option Int) :
    (resultOf plan o).Alike (resultOf plan { o with version }) ∧
      (resultOf plan o).report = (resultOf plan { o with version }).report :=
  ⟨⟨rfl, rfl, rfl, rfl, rfl, rfl⟩, rfl⟩

/-- A batch is committed to a timeline that starts with a flowchart as it is applied to the flowchart. -/
theorem commit_start (engine : Engine) (d : Document) (version : Nat) (operations : List Operation) (origin : String) :
    Agree (fun o settled => ∃ v, settled = { o with version := v }) (engine.apply d operations)
      ((Timeline.commit engine version operations origin).out (.start d version)).1 := by
  let t := Timeline.start d version
  have based : (version : Int) = t.latest := rfl
  rw [based]
  cases applied : engine.apply d operations with
  | error failure =>
    rw [Timeline.commit_failed (t := t) applied]
    exact .error _
  | ok o =>
    cases committed : o.committed with
    | true =>
      rw [Timeline.commit_committed (t := t) applied committed]
      exact .ok ⟨_, rfl⟩
    | false =>
      rw [Timeline.commit_rejected (t := t) applied committed]
      exact .ok ⟨_, rfl⟩

/-- A plan comes to the same on a flowchart and on a timeline that starts with it. -/
theorem commitPlan_start (p : Planner) (plan : Plan) (d : Document) (version : Nat) :
    Agree (fun r draft => r.Alike draft.result ∧ r.report = draft.result.report) (p.applyPlan plan d)
      ((p.commitPlan plan version).out (.start d version)).1 := by
  have started := commit_start p.engine d version plan.operations assistantOrigin
  have found : (Timeline.start d version).get version = .ok d :=
    Timeline.get_natCast_eq_ok_iff.2 (Timeline.at?_latest _)
  have cases := p.commitPlan_cases plan (.start d version) version
  generalize (p.commitPlan plan version).out (.start d version) = done at cases ⊢
  unfold applyPlan
  cases cases with
  | idle empty held =>
    cases found.symm.trans held
    rw [if_pos empty]
    exact .ok ⟨⟨rfl, rfl, rfl, rfl, rfl, rfl⟩, rfl⟩
  | missing _ missing =>
    rw [found] at missing
    cases missing
  | settled filled committed =>
    rw [committed] at started
    rw [if_neg (by simp [filled])]
    generalize p.engine.apply d plan.operations = applied at started ⊢
    cases started with
    | ok same =>
      obtain ⟨v, rfl⟩ := same
      exact .ok (resultOf_alike plan _ v)
  | refused filled failed told =>
    rw [failed] at started
    rw [if_neg (by simp [filled])]
    generalize p.engine.apply d plan.operations = applied at started ⊢
    cases started with
    | error failure =>
      change refused plan.explanation d _ = _ at told
      dsimp only
      rw [told]
      exact .ok ⟨⟨rfl, rfl, rfl, rfl, rfl, rfl⟩, rfl⟩
  | failed filled failed untold =>
    rw [failed] at started
    rw [if_neg (by simp [filled])]
    generalize p.engine.apply d plan.operations = applied at started ⊢
    cases started with
    | error failure =>
      change refused plan.explanation d _ = _ at untold
      dsimp only
      rw [untold]
      exact .error _

end Planner

/-- A turn that was not overtaken comes to what its plan comes to, when nothing comes in between. -/
theorem Session.finish_of_plan {p : Planner} {s : Session} {turn : PendingTurn} {reply : Reply} {plan : Plan}
    (current : turn.generation = s.generation) (given : p.plan reply = .ok plan) :
    ∃ latest, ((finish p turn reply).out s).1 =
      ((p.commitPlan plan turn.base).out s.timeline).1.map (Draft.finish latest) := by
  unfold finish
  rw [Act.out_bind]
  have answers := answer_cases p s turn reply
  generalize (answer p turn reply).out s = answered at answers ⊢
  cases answers with
  | failed receives =>
    cases receives with
    | strained strained => cases given.symm.trans strained
    | unavailable _ unavailable => cases given.symm.trans unavailable
    | failed _ other failed =>
      cases given.symm.trans other
      rw [failed]
      exact ⟨0, rfl⟩
  | done receives =>
    cases receives with
    | overtaken _ overtaken => exact absurd current overtaken
    | malformed _ malformed => cases given.symm.trans malformed
    | idle _ other _ done =>
      cases given.symm.trans other
      rw [done]
      exact ⟨_, rfl⟩
  | batch receives =>
    cases receives with
    | batch _ other =>
      cases given.symm.trans other
      dsimp only
      unfold resolve
      rw [Act.out_bind, conclude, out_onTimeline]
      rcases (p.commitPlan plan turn.base).out s.timeline with ⟨failure | draft, after⟩
      · exact ⟨0, rfl⟩
      · dsimp only
        rw [close_out]
        exact ⟨_, rfl⟩

/-- What comes of a turn that was not overtaken and got no plan. -/
theorem Session.finish_of_noPlan {p : Planner} {s : Session} {turn : PendingTurn} {reply : Reply} {why : NoPlan}
    (current : turn.generation = s.generation) (given : p.plan reply = .error why) :
    ((finish p turn reply).out s).1 = match why with
      | .unavailable report => .error (.reported report)
      | .strained strain => .error strain.failure
      | .malformed e => .ok { s.malformedResult e with version := some (s.timeline.latest : Int) } := by
  unfold finish
  rw [Act.out_bind]
  have answers := answer_cases p s turn reply
  generalize (answer p turn reply).out s = answered at answers ⊢
  cases answers with
  | failed receives =>
    cases receives with
    | strained strained =>
      cases given.symm.trans strained
      rfl
    | unavailable _ unavailable =>
      cases given.symm.trans unavailable
      rfl
    | failed _ other => cases given.symm.trans other
  | done receives =>
    cases receives with
    | overtaken _ overtaken => exact absurd current overtaken
    | malformed _ malformed =>
      cases given.symm.trans malformed
      rfl
    | idle _ other => cases given.symm.trans other
  | batch receives =>
    cases receives with
    | batch _ other => cases given.symm.trans other

/-- A turn comes to the same on a flowchart alone and in a session that is opened for it, when nothing comes
in between: the assistant is asked the same, and whatever it replies, the results are alike or the turns
fail in the same way. The findings are the same too, unless the answer is no plan: then the session leaves
them out. -/
theorem chat_alike (p : Planner) (d : Document) (version : Nat) (conversation : List Message)
    (message : String) (reply : Reply) :
    let begun := (Session.fresh d version conversation).begin p message
    begun.2.prompt = p.prompt message d conversation ∧
      Agree (fun alone result => alone.Alike result ∧
          (alone.report = result.report ↔
            ¬(reply.IsMalformed p.limit ∧ (validate p.catalog d).isClean = false)))
        (p.chat d reply) ((Session.finish p begun.2 reply).out begun.1).1 := by
  intro begun
  refine ⟨rfl, ?_⟩
  have current : begun.2.generation = begun.1.generation := rfl
  unfold Planner.chat
  cases given : p.plan reply with
  | error why =>
    rw [Session.finish_of_noPlan current given]
    cases why with
    | unavailable report => exact .error _
    | strained strain => exact .error _
    | malformed e =>
      have malformed : reply.IsMalformed p.limit := by
        obtain ⟨response, answered, refused⟩ := Planner.plan_eq_malformed given
        exact ⟨response, e, answered, refused⟩
      refine .ok ⟨⟨rfl, rfl, rfl, rfl, rfl, rfl⟩, ?_⟩
      -- the session reports no findings, which is right only of a flowchart without any
      simp [malformed, Session.malformedResult, ← Report.eq_empty_iff]
  | ok plan =>
    have wellFormed : ¬reply.IsMalformed p.limit := by
      obtain ⟨response, answered, parsed⟩ := Planner.plan_eq_ok given
      rintro ⟨other, e, answer, refused⟩
      cases answered.symm.trans answer
      cases parsed.symm.trans refused
    obtain ⟨latest, done⟩ := Session.finish_of_plan current given
    rw [done]
    have agree : Agree _ (p.applyPlan plan d) ((p.commitPlan plan begun.2.base).out begun.1.timeline).1 :=
      p.commitPlan_start plan d version
    dsimp only
    generalize p.applyPlan plan d = alone at agree ⊢
    generalize ((p.commitPlan plan begun.2.base).out begun.1.timeline).1 = drafted at agree ⊢
    cases agree with
    | error failure => exact .error _
    | ok same =>
      obtain ⟨alike, report⟩ := same
      refine .ok ⟨alike.finish latest, iff_of_true ?_ fun both => wellFormed both.1⟩
      rw [report, Draft.finish_report]

end Flowchart
