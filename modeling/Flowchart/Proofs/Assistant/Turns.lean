import Flowchart.Assistant.Session
import Flowchart.Proofs.Edit.Soundness
import Flowchart.Proofs.Versions.Calls

/-!
# What a batch and a turn do to a timeline

* `Timeline.Advances`: a timeline has gone on by one version.
* `Timeline.commit_eq_ok`, `Planner.commitPlan_eq_ok`: a batch that is committed advances the timeline that
  it is based on, and any other leaves it as it was.
* `Plan.parse_of_load`: a reader with limits reads the plan that an answer is.
* `Planner.commitPlan_cases`, `Session.receive_cases`: all that can come of a plan and of a reply.
* `Session.receive_overtaken`, `Session.receive_late`, `Session.conclude_late`: turns that come to nothing.
* `Session.close_out`: a turn that is closed leaves the timeline as it was, and is remembered unless it was discarded.
-/

namespace Flowchart

/-- A batch of sound operations turns a sound flowchart into a sound one. -/
def Engine.Sound (engine : Engine) : Prop :=
  ∀ {d : Document} {operations : List Operation} {o : Outcome}, d.Sound →
    (∀ operation ∈ operations, operation.Sound) → engine.apply d operations = .ok o → o.document.Sound

theorem Engine.standard_sound {catalog : Catalog} (templates : catalog.Sound) :
    (Engine.standard catalog).Sound := by
  intro d operations o sound each done
  exact applyBatch_sound templates sound each (mapError_eq_ok_iff.1 done)

namespace Timeline

/-- A timeline has gone on by one version. -/
structure Advances (t after : Timeline) (d : Document) : Prop where
  latest : after.latest = t.latest + 1
  current : after.current = d

variable {engine : Engine} {t after : Timeline} {base : Int} {operations : List Operation} {origin : String}

/-- A batch is based on the latest version. If it is committed the timeline advances; if not it stays. -/
theorem commit_eq_ok {o : Outcome} (done : (commit engine base operations origin).out t = (.ok o, after)) :
    base = t.latest ∧ ∃ made, engine.apply t.current operations = .ok made ∧
      o.document = made.document ∧ o.committed = made.committed ∧
      if o.committed then t.Advances after o.document ∧ o.version = some (t.latest + 1 : Int)
      else after = t := by
  by_cases based : base = t.latest
  · subst based
    cases applied : engine.apply t.current operations with
    | error failure =>
      rw [commit_failed applied] at done
      cases done
    | ok made =>
      cases committed : made.committed with
      | true =>
        rw [commit_committed applied committed] at done
        cases done
        refine ⟨rfl, made, rfl, rfl, rfl, ?_⟩
        rw [if_pos committed]
        exact ⟨⟨rfl, rfl⟩, rfl⟩
      | false =>
        rw [commit_rejected applied committed] at done
        cases done
        refine ⟨rfl, made, rfl, rfl, rfl, ?_⟩
        rw [if_neg (by simp [committed])]
  · rw [commit_stale engine based] at done
    cases done

/-- A batch that fails leaves the timeline as it was. -/
theorem commit_eq_error {failure : Failure}
    (failed : (commit engine base operations origin).out t = (.error failure, after)) : after = t := by
  by_cases based : base = t.latest
  · subst based
    cases applied : engine.apply t.current operations with
    | error failure =>
      rw [commit_failed applied] at failed
      exact (congrArg Prod.snd failed).symm
    | ok made =>
      cases committed : made.committed with
      | true =>
        rw [commit_committed applied committed] at failed
        cases failed
      | false =>
        rw [commit_rejected applied committed] at failed
        cases failed
  · rw [commit_stale engine based] at failed
    exact (congrArg Prod.snd failed).symm

end Timeline

/-! ### Plans that are read -/

/-- The operations of a plan are sound, as an answer is read from text. -/
theorem Plan.sound_of_parse {response : String} {plan : Plan} (parsed : Plan.parse response = .ok plan) :
    ∀ operation ∈ plan.operations, operation.Sound := by
  obtain ⟨text, -, parsed⟩ := bind_eq_ok_iff.1 parsed
  split at parsed
  next => cases parsed
  next fields decoded =>
    have distinct := (Json.distinctKeys_object.1 (Json.parse_distinctKeys decoded)).2
    cases checked : Plan.check (.object fields) with
    | bad issues =>
      rw [checked] at parsed
      cases parsed
    | ok made =>
      rw [checked] at parsed
      cases parsed
      obtain ⟨fields, same, built⟩ := Check.entity_eq_ok checked
      cases same
      simp only [Checked.seq_eq_ok, Checked.map_eq_ok] at built
      obtain ⟨_, operations, ⟨explanation, -, rfl⟩, read, rfl⟩ := built
      -- an answer without a list of operations is a plan without any
      cases operations with
      | none =>
        intro operation mem
        cases mem
      | some operations =>
        obtain ⟨field, mem, each⟩ := Record.optional_eq_some read
        exact Operation.sound_of_checkList (distinct field mem) each
  next => cases parsed

/-- What a reader with limits makes of an answer that does not go beyond them. -/
theorem Plan.load_cases (room : Nat) (response : String) :
    (∃ strain, Plan.load room response = .error (.strained strain)) ∨
      Plan.load room response = (Plan.parse response).mapError .malformed := by
  unfold load
  cases extracted : extractJson response with
  | error e =>
    refine .inr ?_
    rw [parse, extracted]
    rfl
  | ok text =>
    cases strained : Json.strain? room text with
    | some strain =>
      refine .inl ⟨strain, ?_⟩
      simp only [Except.mapError, bind, Except.bind, strained]
      rfl
    | none =>
      refine .inr ?_
      simp only [Except.mapError, bind, Except.bind, strained]

/-- With room for two open arrays and objects, a third one is too much. -/
example : Json.strain? 2 "\x7b\"operations\":[[".toList = some .depth := by decide +kernel

theorem Plan.parse_of_load {room : Nat} {response : String} {plan : Plan}
    (loaded : Plan.load room response = .ok plan) : Plan.parse response = .ok plan := by
  obtain ⟨strain, strained⟩ | same := Plan.load_cases room response
  · rw [strained] at loaded
    cases loaded
  · rw [same] at loaded
    exact mapError_eq_ok_iff.1 loaded

theorem Plan.parse_of_load_malformed {room : Nat} {response : String} {e : PlanError}
    (loaded : Plan.load room response = .error (.malformed e)) : Plan.parse response = .error e := by
  obtain ⟨strain, strained⟩ | same := Plan.load_cases room response
  · rw [strained] at loaded
    cases loaded
  · rw [same] at loaded
    obtain ⟨_, failed, same⟩ := mapError_eq_error_iff.1 loaded
    cases same
    exact failed

namespace Planner

variable {p : Planner} {plan : Plan} {reply : Reply} {t after : Timeline} {base : Nat} {draft : Draft}
  {result : TurnResult}

/-- A reply gives a plan if it is an answer that parses to it, and strains no reader. -/
theorem plan_eq_ok (given : p.plan reply = .ok plan) :
    ∃ response, answerOf p.limit reply = .ok response ∧ Plan.parse response = .ok plan := by
  obtain ⟨response, answered, loaded⟩ := bind_eq_ok_iff.1 given
  exact ⟨response, mapError_eq_ok_iff.1 answered, Plan.parse_of_load loaded⟩

theorem plan_eq_malformed {e : PlanError} (given : p.plan reply = .error (.malformed e)) :
    ∃ response, answerOf p.limit reply = .ok response ∧ Plan.parse response = .error e := by
  obtain failed | ⟨response, answered, loaded⟩ := bind_eq_error_iff.1 given
  · obtain ⟨_, -, same⟩ := mapError_eq_error_iff.1 failed
    cases same
  · exact ⟨response, mapError_eq_ok_iff.1 answered, Plan.parse_of_load_malformed loaded⟩

/-- An assistant that does not answer in time is not available. -/
theorem plan_late (p : Planner) : p.plan .late = .error (.unavailable (timeoutReport p.limit)) := by
  have late : answerOf p.limit .late = .error (timeoutReport p.limit) := by
    unfold answerOf
    split <;> rfl
  unfold plan
  rw [late]
  rfl

/-- The operations of a plan that a reply gives are sound. -/
theorem plan_sound (given : p.plan reply = .ok plan) : ∀ operation ∈ plan.operations, operation.Sound := by
  obtain ⟨_, -, parsed⟩ := plan_eq_ok given
  exact Plan.sound_of_parse parsed

/-- A refusal that is told is a report, and the result rejects the plan with it. -/
theorem refused_cases {explanation : String} {d : Document} {failure : Failure}
    (told : Planner.refused explanation d failure = .ok result) :
    ∃ report, failure = .reported report ∧ result = { explanation, document := d, rejection := some report } := by
  unfold Planner.refused at told
  split at told
  next report =>
    split at told
    · cases told
      exact ⟨report, rfl, rfl⟩
    · cases told
  next => cases told

/-- The result of a plan without operations. -/
def idleResult (p : Planner) (plan : Plan) (d : Document) (base : Nat) : TurnResult :=
  { explanation := plan.explanation, document := d, report := validate p.catalog d, version := some base }

/-- All that can come of a plan: it has no operations, its batch came to an outcome, or its batch was refused. Only
the second can have changed the timeline. -/
inductive Commits (p : Planner) (plan : Plan) (t : Timeline) (base : Nat) : Except Failure Draft × Timeline → Prop where
  | idle {d : Document} (empty : plan.operations.isEmpty = true) (found : t.get base = .ok d) :
      Commits p plan t base (.ok (.numbered (p.idleResult plan d base)), t)
  | missing {e : TimelineError} (empty : plan.operations.isEmpty = true) (missing : t.get base = .error e) :
      Commits p plan t base (.error e.failure, t)
  | settled {after : Timeline} {o : Outcome} (filled : plan.operations.isEmpty = false)
      (committed : (Timeline.commit p.engine base plan.operations assistantOrigin).out t = (.ok o, after)) :
      Commits p plan t base (.ok (.numbered (resultOf plan o)), after)
  | refused {failure : Failure} {result : TurnResult} (filled : plan.operations.isEmpty = false)
      (failed : (Timeline.commit p.engine base plan.operations assistantOrigin).out t = (.error failure, t))
      (told : Planner.refused plan.explanation t.current failure = .ok result) :
      Commits p plan t base (.ok (.unnumbered result), t)
  | failed {failure other : Failure} (filled : plan.operations.isEmpty = false)
      (failed : (Timeline.commit p.engine base plan.operations assistantOrigin).out t = (.error failure, t))
      (untold : Planner.refused plan.explanation t.current failure = .error other) :
      Commits p plan t base (.error other, t)

theorem commitPlan_cases (p : Planner) (plan : Plan) (t : Timeline) (base : Nat) :
    p.Commits plan t base ((p.commitPlan plan base).out t) := by
  unfold commitPlan
  cases empty : plan.operations.isEmpty with
  | true =>
    rw [if_pos rfl, Act.out_bind_of_ok Act.out_getThe, Act.out_bind, Act.out_ofExcept]
    cases found : t.get base with
    | ok d => exact .idle empty found
    | error e => exact .missing empty found
  | false =>
    rw [if_neg (by decide), Act.out_bind_of_ok (Act.out_attempt _ t)]
    rcases done : (Timeline.commit p.engine base plan.operations assistantOrigin).out t with ⟨failure | o, after⟩
    · cases Timeline.commit_eq_error done
      dsimp only
      rw [Act.out_bind_of_ok Act.out_getThe, Act.out_bind, Act.out_ofExcept]
      cases told : Planner.refused plan.explanation t.current failure with
      | ok result => exact .refused empty done told
      | error other => exact .failed empty done told
    · exact .settled empty done

/-- A plan that is applied is based on the latest version and advances the timeline by what its batch
came to; any other leaves the timeline as it was. -/
theorem commitPlan_eq_ok (done : (p.commitPlan plan base).out t = (.ok draft, after)) :
    (after = t ∧ draft.result.applied = false) ∨
      plan.operations.isEmpty = false ∧ base = t.latest ∧
        t.Advances after draft.result.document ∧ draft.result.applied = true ∧
        draft = .numbered draft.result ∧ draft.result.version = some (base + 1 : Int) ∧
        ∃ made, p.engine.apply t.current plan.operations = .ok made ∧
          draft.result.document = made.document := by
  have cases := p.commitPlan_cases plan t base
  rw [done] at cases
  cases cases with
  | idle => exact .inl ⟨rfl, rfl⟩
  | settled filled committed =>
    obtain ⟨based, made, applied, document, same, effect⟩ := Timeline.commit_eq_ok committed
    cases Int.ofNat_inj.1 based
    split at effect
    next settled =>
      obtain ⟨advances, version⟩ := effect
      exact .inr ⟨filled, rfl, advances, settled, rfl, version, made, applied, document⟩
    next rejected => exact .inl ⟨effect, eq_false_of_ne_true rejected⟩
  | refused _ _ told =>
    obtain ⟨_, -, rfl⟩ := refused_cases told
    exact .inl ⟨rfl, rfl⟩

/-- A plan that has no operations or comes too late is not applied. -/
theorem commitPlan_idle (idle : plan.operations.isEmpty = true ∨ base ≠ t.latest)
    (done : (p.commitPlan plan base).out t = (.ok draft, after)) : after = t ∧ draft.result.applied = false := by
  obtain kept | ⟨filled, based, -⟩ := commitPlan_eq_ok done
  · exact kept
  · rcases idle with empty | late
    · rw [empty] at filled
      cases filled
    · exact absurd based late

/-- A plan that fails leaves the timeline as it was. -/
theorem commitPlan_eq_error {failure : Failure} (done : (p.commitPlan plan base).out t = (.error failure, after)) :
    after = t := by
  have cases := p.commitPlan_cases plan t base
  rw [done] at cases
  cases cases with
  | missing => rfl
  | failed => rfl

/-- A plan leaves a timeline as it was, or makes of it what a call makes of it. -/
theorem commitPlan_timeline (p : Planner) (plan : Plan) (t : Timeline) (base : Nat) :
    ((p.commitPlan plan base).out t).2 = t ∨
      ∃ call, ((p.commitPlan plan base).out t).2 = (t.respond p.engine call).2 := by
  have cases := p.commitPlan_cases plan t base
  generalize (p.commitPlan plan base).out t = done at cases ⊢
  cases cases with
  | settled _ committed =>
    refine .inr ⟨.commit base plan.operations assistantOrigin, ?_⟩
    rw [Timeline.respond, Timeline.Call.script, Act.out_bind_of_ok committed]
    rfl
  | idle => exact .inl rfl
  | missing => exact .inl rfl
  | refused => exact .inl rfl
  | failed => exact .inl rfl

/-- The result of a plan says what the plan says. -/
theorem commitPlan_explains (done : (p.commitPlan plan base).out t = (.ok draft, after)) :
    draft.result.explanation = plan.explanation ∧ draft.result.discarded = false := by
  have cases := p.commitPlan_cases plan t base
  rw [done] at cases
  cases cases with
  | idle => exact ⟨rfl, rfl⟩
  | settled => exact ⟨rfl, rfl⟩
  | refused _ _ told =>
    obtain ⟨_, -, rfl⟩ := refused_cases told
    exact ⟨rfl, rfl⟩

/-- The result of a plan that is based on an earlier version than the latest. -/
def conflict (plan : Plan) (t : Timeline) (base : Nat) : TurnResult :=
  { explanation := plan.explanation, document := t.current
    rejection := some (.of .versionConflict s!"Base version {(base : Int)} is stale; latest is {t.latest}"
      [("base_version", .int base), ("latest_version", .int t.latest)]) }

theorem commitPlan_late (filled : plan.operations.isEmpty = false) (late : base ≠ t.latest) :
    (p.commitPlan plan base).out t = (.ok (.unnumbered (conflict plan t base)), t) := by
  have other : (base : Int) ≠ t.latest := fun same => late (Int.ofNat_inj.1 same)
  have stale := Timeline.commit_stale p.engine other plan.operations assistantOrigin
  unfold commitPlan
  rw [filled, if_neg (by decide), Act.out_bind_of_ok (Act.out_attempt _ t), stale]
  rfl

end Planner

@[simp] theorem Draft.finish_explanation (draft : Draft) (latest : Nat) :
    (draft.finish latest).explanation = draft.result.explanation := by
  cases draft <;> rfl

@[simp] theorem Draft.finish_document (draft : Draft) (latest : Nat) :
    (draft.finish latest).document = draft.result.document := by
  cases draft <;> rfl

@[simp] theorem Draft.finish_applied (draft : Draft) (latest : Nat) :
    (draft.finish latest).applied = draft.result.applied := by
  cases draft <;> rfl

@[simp] theorem Draft.finish_report (draft : Draft) (latest : Nat) :
    (draft.finish latest).report = draft.result.report := by
  cases draft <;> rfl

@[simp] theorem Draft.finish_rejection (draft : Draft) (latest : Nat) :
    (draft.finish latest).rejection = draft.result.rejection := by
  cases draft <;> rfl

@[simp] theorem Draft.finish_discarded (draft : Draft) (latest : Nat) :
    (draft.finish latest).discarded = draft.result.discarded := by
  cases draft <;> rfl

namespace Session

variable {p : Planner} {s after : Session} {turn : PendingTurn} {reply : Reply} {plan : Plan} {draft : Draft}
  {result : TurnResult} {failure : Failure}

theorem out_onTimeline (action : Act Timeline α) (s : Session) :
    (onTimeline action).out s = ((action.out s.timeline).1, { s with timeline := (action.out s.timeline).2 }) := rfl

theorem onTimeline_out {action : Act Timeline α} {r : Except Failure α}
    (done : (onTimeline action).out s = (r, after)) :
    action.out s.timeline = (r, after.timeline) ∧ after = { s with timeline := after.timeline } := by
  rw [out_onTimeline] at done
  obtain ⟨rfl, rfl⟩ := Prod.mk.inj done
  exact ⟨rfl, rfl⟩

/-- The result for a reply that is no plan. -/
def malformedResult (s : Session) (e : PlanError) : TurnResult :=
  { explanation := Planner.malformedExplanation e, document := s.timeline.current, rejection := some e.report }

/-- All that can come of a reply: it strains its reader, it is out of date, it is none or no plan, its plan is done with
or fails, or the plan's batch is still to be committed. -/
inductive Receives (p : Planner) (s : Session) (turn : PendingTurn) (reply : Reply) :
    Except Failure Received → Prop where
  | strained {strain : Json.Strain} (strained : p.plan reply = .error (.strained strain)) :
      Receives p s turn reply (.error strain.failure)
  | overtaken (readable : ∀ strain, p.plan reply ≠ .error (.strained strain))
      (overtaken : turn.generation ≠ s.generation) : Receives p s turn reply (.ok (.drafted s.discarded))
  | unavailable {report : ErrorReport} (current : turn.generation = s.generation)
      (unavailable : p.plan reply = .error (.unavailable report)) : Receives p s turn reply (.error (.reported report))
  | malformed {e : PlanError} (current : turn.generation = s.generation)
      (malformed : p.plan reply = .error (.malformed e)) :
      Receives p s turn reply (.ok (.drafted (.unnumbered (s.malformedResult e))))
  | idle {plan : Plan} {draft : Draft} (current : turn.generation = s.generation) (given : p.plan reply = .ok plan)
      (idle : plan.operations.isEmpty = true ∨ turn.base ≠ s.timeline.latest)
      (done : (p.commitPlan plan turn.base).out s.timeline = (.ok draft, s.timeline)) :
      Receives p s turn reply (.ok (.drafted draft))
  | failed {plan : Plan} {failure : Failure} (current : turn.generation = s.generation)
      (given : p.plan reply = .ok plan)
      (failed : (p.commitPlan plan turn.base).out s.timeline = (.error failure, s.timeline)) :
      Receives p s turn reply (.error failure)
  | batch {plan : Plan} (current : turn.generation = s.generation) (given : p.plan reply = .ok plan)
      (filled : plan.operations.isEmpty = false) (based : turn.base = s.timeline.latest) :
      Receives p s turn reply (.ok (.batch plan))

/-- A reply leaves the session as it was. -/
theorem receive_cases (p : Planner) (s : Session) (turn : PendingTurn) (reply : Reply) :
    ∃ received, (receive p turn reply).out s = (received, s) ∧ s.Receives p turn reply received := by
  unfold receive
  rw [Act.out_bind_of_ok Act.out_get]
  by_cases overtaken : turn.generation ≠ s.generation
  · cases given : p.plan reply with
    | error why =>
      cases why with
      | strained strain => exact ⟨_, rfl, .strained given⟩
      | unavailable report =>
        dsimp only
        rw [if_pos overtaken]
        exact ⟨_, rfl, .overtaken (by simp [given]) overtaken⟩
      | malformed e =>
        dsimp only
        rw [if_pos overtaken]
        exact ⟨_, rfl, .overtaken (by simp [given]) overtaken⟩
    | ok plan =>
      dsimp only
      rw [if_pos overtaken]
      exact ⟨_, rfl, .overtaken (by simp [given]) overtaken⟩
  · have current : turn.generation = s.generation := not_not.mp overtaken
    cases given : p.plan reply with
    | error why =>
      cases why with
      | strained strain => exact ⟨_, rfl, .strained given⟩
      | unavailable report =>
        dsimp only
        rw [if_neg overtaken]
        exact ⟨_, rfl, .unavailable current given⟩
      | malformed e =>
        dsimp only
        rw [if_neg overtaken]
        exact ⟨_, rfl, .malformed current given⟩
    | ok plan =>
      dsimp only
      rw [if_neg overtaken]
      by_cases idle : plan.operations.isEmpty = true ∨ turn.base ≠ s.timeline.latest
      · rw [if_pos idle, Act.out_bind, out_onTimeline]
        rcases done : (p.commitPlan plan turn.base).out s.timeline with ⟨failure | draft, t⟩
        · cases Planner.commitPlan_eq_error done
          exact ⟨_, rfl, .failed current given done⟩
        · obtain ⟨rfl, -⟩ := Planner.commitPlan_idle idle done
          exact ⟨_, rfl, .idle current given idle done⟩
      · rw [if_neg idle]
        simp only [not_or, Bool.not_eq_true, not_not] at idle
        exact ⟨_, rfl, .batch current given idle.1 idle.2⟩

/-- A turn that is drafted with its reply has applied nothing. -/
theorem receive_unapplied (receives : s.Receives p turn reply (.ok (.drafted draft))) :
    draft.result.applied = false := by
  cases receives with
  | overtaken => rfl
  | malformed => rfl
  | idle _ _ idle done => exact (Planner.commitPlan_idle idle done).2

/-- A plan whose batch is still to be committed has sound operations. -/
theorem receive_eq_batch (receives : s.Receives p turn reply (.ok (.batch plan))) :
    ∀ operation ∈ plan.operations, operation.Sound := by
  cases receives with
  | batch _ given => exact Planner.plan_sound given

/-- A turn whose batch is still to be committed has not been overtaken, nor has its version. -/
theorem receive_current (receives : s.Receives p turn reply (.ok (.batch plan))) :
    turn.generation = s.generation ∧ turn.base = s.timeline.latest ∧ plan.operations.isEmpty = false := by
  cases receives with
  | batch current _ filled based => exact ⟨current, based, filled⟩

/-- A turn that was not overtaken is not discarded. -/
theorem receive_kept (current : turn.generation = s.generation)
    (receives : s.Receives p turn reply (.ok (.drafted draft))) : draft.result.discarded = false := by
  cases receives with
  | overtaken _ overtaken => exact absurd current overtaken
  | malformed => rfl
  | idle _ _ _ done => exact (Planner.commitPlan_explains done).2

/-- A batch is committed to the timeline, and nothing else of the session is concerned. -/
theorem commitPlan_of_conclude {r : Except Failure Draft} (concluded : (conclude p turn plan).out s = (r, after)) :
    (p.commitPlan plan turn.base).out s.timeline = (r, after.timeline) ∧
      after = { s with timeline := after.timeline } :=
  onTimeline_out concluded

/-- A turn with a plan applies it to the timeline as a commit does, or leaves the timeline as it was. -/
theorem conclude_eq_ok (concluded : (conclude p turn plan).out s = (.ok draft, after)) :
    after = { s with timeline := after.timeline } ∧ draft.result.explanation = plan.explanation ∧
      draft.result.discarded = false ∧
      ((after = s ∧ draft.result.applied = false) ∨
        turn.base = s.timeline.latest ∧ s.timeline.Advances after.timeline draft.result.document ∧
          draft.result.applied = true ∧ draft = .numbered draft.result ∧
          draft.result.version = some (turn.base + 1 : Int) ∧
          ∃ made, p.engine.apply s.timeline.current plan.operations = .ok made ∧
            draft.result.document = made.document) := by
  obtain ⟨done, only⟩ := commitPlan_of_conclude concluded
  obtain ⟨explanation, kept⟩ := Planner.commitPlan_explains done
  refine ⟨only, explanation, kept, ?_⟩
  obtain ⟨stays, idle⟩ | ⟨-, advances⟩ := Planner.commitPlan_eq_ok done
  · rw [stays] at only
    exact .inl ⟨only, idle⟩
  · exact .inr advances

/-- A plan that fails leaves the session as it was. -/
theorem conclude_eq_error (concluded : (conclude p turn plan).out s = (.error failure, after)) : after = s := by
  obtain ⟨done, only⟩ := commitPlan_of_conclude concluded
  rwa [Planner.commitPlan_eq_error done] at only

/-! ### Turns that come to nothing -/

/-- A turn that is out of date is discarded, unless the reply strains its reader. -/
theorem receive_overtaken (overtaken : turn.generation ≠ s.generation) (reply : Reply) :
    (∃ strain, p.plan reply = .error (.strained strain) ∧
        (receive p turn reply).out s = (.error strain.failure, s)) ∨
      (∀ strain, p.plan reply ≠ .error (.strained strain)) ∧
        (receive p turn reply).out s = (.ok (.drafted s.discarded), s) := by
  obtain ⟨received, out, receives⟩ := receive_cases p s turn reply
  cases receives with
  | strained strained => exact .inl ⟨_, strained, out⟩
  | overtaken readable => exact .inr ⟨readable, out⟩
  | unavailable current => exact absurd current overtaken
  | malformed current => exact absurd current overtaken
  | idle current => exact absurd current overtaken
  | failed current => exact absurd current overtaken
  | batch current => exact absurd current overtaken

theorem receive_late (current : turn.generation = s.generation) (given : p.plan reply = .ok plan)
    (filled : plan.operations.isEmpty = false) (late : turn.base ≠ s.timeline.latest) :
    (receive p turn reply).out s =
      (.ok (.drafted (.unnumbered (Planner.conflict plan s.timeline turn.base))), s) := by
  have idle : plan.operations.isEmpty = true ∨ turn.base ≠ s.timeline.latest := .inr late
  unfold receive
  rw [Act.out_bind_of_ok Act.out_get]
  simp only [given, current, ne_eq, not_true, if_false, if_pos idle]
  rw [Act.out_bind, out_onTimeline, Planner.commitPlan_late filled late]
  rfl

theorem conclude_late (filled : plan.operations.isEmpty = false) (late : turn.base ≠ s.timeline.latest) :
    (conclude p turn plan).out s = (.ok (.unnumbered (Planner.conflict plan s.timeline turn.base)), s) := by
  rw [conclude, out_onTimeline, Planner.commitPlan_late filled late]

/-! ### The end of a turn -/

/-- The session after a turn has ended in it with a result. -/
def remembering (s : Session) (message : String) (result : TurnResult) : Session :=
  if result.discarded then s else s.remember message result.explanation

theorem close_out (turn : PendingTurn) (draft : Draft) (s : Session) :
    (close turn draft).out s =
      (.ok (draft.finish s.timeline.latest), s.remembering turn.message (draft.finish s.timeline.latest)) := by
  unfold close remembering
  rw [Act.out_bind_of_ok Act.out_get]
  dsimp only
  cases (draft.finish s.timeline.latest).discarded <;> rfl

@[simp] theorem remembering_timeline (s : Session) (message : String) (result : TurnResult) :
    (s.remembering message result).timeline = s.timeline := by
  unfold remembering
  split <;> rfl

@[simp] theorem remembering_generation (s : Session) (message : String) (result : TurnResult) :
    (s.remembering message result).generation = s.generation := by
  unfold remembering
  split <;> rfl

end Session

end Flowchart
