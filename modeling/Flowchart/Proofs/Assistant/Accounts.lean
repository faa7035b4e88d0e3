import Flowchart.Proofs.Assistant.Moments
import Flowchart.Proofs.Assistant.TurnResults

/-!
# The results of turns that overlap

* `Chat.Account`, `Chat.Accounted`: the result of a turn agrees with the timeline and with the moments of the chat.
* `Chat.Torn`: a result may bear the number of a later version than the one that it shows, if that version was stored in
  between the two readings.
* `Chat.Noted`: the invariant. `Chat.Noted.step` keeps it through an event, `Chat.Noted.play` through several.
* `Chat.accounted_play`: all results agree, in whatever order things happen, unless they are torn.
* `Chat.torn_play`: a run with a result that is torn.
-/

namespace Flowchart

namespace Chat

/-- What is known of a turn's result apart from the flowchart and the number it shows. -/
structure Account (p : Planner) (past : List Moment) (place : Nat) (result : TurnResult) : Prop where
  applied : result.applied = true → result.rejection = none ∧ result.discarded = false ∧ result.report.errors = [] ∧
    ∃ m ∈ past, m.Begins place ∧ result.version = some (m.before.session.timeline.latest + 1 : Int)
  /-- The turn has stored a version itself if it was applied, and only then. -/
  stored : result.applied = true ↔ ∃ m ∈ past, ∃ version, m.Stores p place version
  once : result.endings.count true ≤ 1
  idle : result.endings.count true = 0 → ∃ m ∈ past, ∃ reply response plan, m.Resumes place reply ∧
    answerOf p.limit reply = .ok response ∧ Plan.parse response = .ok plan ∧ plan.operations = []

/-- The result of the turn at a place shows the latest flowchart of one moment of the turn, under the number that the
latest version has at a later one, when the turn is closed. -/
structure Torn (place : Nat) (result : TurnResult) (m closing : Moment) : Prop where
  goes : m.event.place? = some place
  closes : closing.event = .close place
  later : m.before.session.timeline.latest < closing.before.session.timeline.latest
  document : result.document = m.before.session.timeline.current
  version : result.version = some (closing.before.session.timeline.latest : Int)
  idle : result.applied = false

/-- The result of the turn at a place agrees with the timeline, and with what has happened to the turn. Only a result
that is torn may hold another flowchart than that of the version it names. -/
structure Accounted (p : Planner) (past : List Moment) (t : Timeline) (place : Nat) (result : TurnResult) : Prop where
  account : Account p past place result
  recorded : result.RecordedIn t ∨ ∃ m ∈ past, ∃ closing ∈ past, Torn place result m closing

/-! ### The invariant -/

/-- What a turn shows that is still to be closed: a version of the timeline, or the latest flowchart of the moment in
which the turn went on. -/
inductive Presents (past : List Moment) (t : Timeline) (place : Nat) : Draft → Prop where
  | numbered {result : TurnResult} (recorded : result.RecordedIn t) : Presents past t place (.numbered result)
  | unnumbered {result : TurnResult} {m : Moment} (mem : m ∈ past) (goes : m.event.place? = some place)
      (document : result.document = m.before.session.timeline.current)
      (found : t.at? m.before.session.timeline.latest = some result.document) (idle : result.applied = false) :
      Presents past t place (.unnumbered result)

/-- What is known of the turn at a place after some moments. A turn that has not got to its batch has stored nothing. -/
structure Turn.Noted (p : Planner) (past : List Moment) (t : Timeline) (place : Nat) (turn : Turn) : Prop where
  begun : ∃ m ∈ past, m.Begins place ∧ m.before.session.timeline.latest = turn.pending.base
  open_ : (turn.stage = .waiting ∨ ∃ plan, turn.stage = .planned plan) →
    ∀ m ∈ past, ∀ version, ¬m.Stores p place version
  drafted : ∀ draft, turn.stage = .drafted draft → Account p past place draft.result ∧ Presents past t place draft
  ended : ∀ result, turn.stage = .ended (.ok result) → Accounted p past t place result

structure Noted (p : Planner) (first : Nat) (past : List Moment) (c : Chat) : Prop where
  consistent : c.Consistent first
  places : ∀ m ∈ past, (m.after p).turns.length ≤ c.turns.length
  turns : ∀ (place : Nat) (turn : Turn), c.turns[place]? = some turn → turn.Noted p past c.session.timeline place

variable {p : Planner} {c : Chat} {first place : Nat} {turn was : Turn} {event : Event} {past : List Moment}

theorem Moment.not_stores_of_eq {m : Moment} (same : (m.after p).session.timeline = m.before.session.timeline)
    (place version : Nat) : ¬m.Stores p place version := by
  rintro ⟨-, absent, present⟩
  rw [same, absent] at present
  cases present

/-- A turn that is not there stores nothing. -/
theorem Moment.Stores.lt_length {m : Moment} {version : Nat} (stores : m.Stores p place version) :
    place < m.before.turns.length := by
  by_contra past
  have absent : m.before.turns[place]? = none := List.getElem?_eq_none (Nat.le_of_not_lt past)
  have same : (m.after p).session.timeline = m.before.session.timeline := by
    obtain ⟨goes, -, -⟩ := stores
    obtain ⟨before, event⟩ := m
    cases event with
    | send | cancel | edit => cases goes
    | reply at_ reply => exact congrArg Session.timeline (reply_session before at_ reply)
    | close at_ => exact close_timeline before at_
    | conclude at_ =>
      cases goes
      simp [Moment.after, step, Chat.conclude, absent]
  exact Moment.not_stores_of_eq same place version stores

/-- A turn that has stored nothing has not done so in one more moment either. -/
theorem not_stores_later {m : Moment} (none : ∀ m ∈ past, ∀ version, ¬m.Stores p place version)
    (idle : ∀ version, ¬m.Stores p place version) : ∀ other ∈ past ++ [m], ∀ version, ¬other.Stores p place version :=
  List.forall_mem_append.mpr ⟨none, List.forall_mem_singleton.mpr idle⟩

/-! #### What stays true in a moment in which the turn stores nothing -/

theorem Account.later {result : TurnResult} {m : Moment} (account : Account p past place result)
    (idle : ∀ version, ¬m.Stores p place version) : Account p (past ++ [m]) place result where
  applied applied := by
    obtain ⟨rejection, discarded, errors, m, mem, begun⟩ := account.applied applied
    exact ⟨rejection, discarded, errors, m, List.mem_append_left _ mem, begun⟩
  stored := by
    rw [account.stored]
    constructor
    · rintro ⟨m, mem, stores⟩
      exact ⟨m, List.mem_append_left _ mem, stores⟩
    · rintro ⟨other, mem, version, stores⟩
      rcases List.mem_append.mp mem with old | new
      · exact ⟨other, old, version, stores⟩
      · cases List.mem_singleton.mp new
        exact absurd stores (idle version)
  once := account.once
  idle none := by
    obtain ⟨m, mem, answered⟩ := account.idle none
    exact ⟨m, List.mem_append_left _ mem, answered⟩

theorem recordedIn_later {t after : Timeline} {result : TurnResult} (recorded : result.RecordedIn t)
    (kept : ∀ version d, t.at? version = some d → after.at? version = some d) : result.RecordedIn after := by
  obtain ⟨version, named, found⟩ := recorded
  exact ⟨version, named, kept version _ found⟩

theorem Presents.later {t after : Timeline} {draft : Draft} (presents : Presents past t place draft)
    (kept : ∀ version d, t.at? version = some d → after.at? version = some d) (m : Moment) :
    Presents (past ++ [m]) after place draft := by
  cases presents with
  | numbered recorded => exact .numbered (recordedIn_later recorded kept)
  | unnumbered mem goes document found idle =>
    exact .unnumbered (List.mem_append_left _ mem) goes document (kept _ _ found) idle

theorem Accounted.later {t after : Timeline} {result : TurnResult} {m : Moment}
    (accounted : Accounted p past t place result)
    (kept : ∀ version d, t.at? version = some d → after.at? version = some d)
    (idle : ∀ version, ¬m.Stores p place version) : Accounted p (past ++ [m]) after place result where
  account := accounted.account.later idle
  recorded := by
    obtain recorded | ⟨m, mem, closing, closes, torn⟩ := accounted.recorded
    · exact .inl (recordedIn_later recorded kept)
    · exact .inr ⟨m, List.mem_append_left _ mem, closing, List.mem_append_left _ closes, torn⟩

/-- A turn that stays at its stage agrees as before. -/
theorem Turn.Noted.later {t after : Timeline} {m : Moment} (noted : was.Noted p past t place)
    (pending : turn.pending = was.pending) (stage : turn.stage = was.stage)
    (kept : ∀ version d, t.at? version = some d → after.at? version = some d)
    (idle : ∀ version, ¬m.Stores p place version) : turn.Noted p (past ++ [m]) after place where
  begun := by
    obtain ⟨m, mem, begins⟩ := noted.begun
    exact ⟨m, List.mem_append_left _ mem, pending ▸ begins⟩
  open_ going := not_stores_later (noted.open_ (stage ▸ going)) idle
  drafted draft drafted := by
    obtain ⟨account, presents⟩ := noted.drafted draft (stage ▸ drafted)
    exact ⟨account.later idle, presents.later kept m⟩
  ended result gone := (noted.ended result (stage ▸ gone)).later kept idle

/-! #### The steps of a turn -/

/-- A turn that has just begun has stored nothing: there was no turn at its place before. -/
theorem noted_of_begun {message : String} {t : Timeline}
    (places : ∀ m ∈ past, (m.after p).turns.length ≤ c.turns.length) (new : c.turns.length = place)
    (base : turn.pending.base = c.session.timeline.latest) (stage : turn.stage = .waiting) :
    turn.Noted p (past ++ [⟨c, .send message⟩]) t place where
  begun := ⟨_, List.mem_append_right _ (List.mem_singleton_self _), ⟨⟨_, rfl⟩, new⟩, base.symm⟩
  open_ _ m mem version stores := by
    rcases List.mem_append.mp mem with old | last
    · have there := stores.lt_length
      have grown := (length_step m.before m.event).trans (places m old)
      omega
    · cases List.mem_singleton.mp last
      cases stores.1
  drafted _ drafted := by cases stage.symm.trans drafted
  ended _ gone := by cases stage.symm.trans gone

/-- A turn that is drafted with its reply agrees, as it has stored nothing. -/
theorem account_of_received {draft : Draft} {reply : Reply} (held : c.turns[place]? = some was)
    (waiting : was.stage = .waiting)
    (none : ∀ m ∈ past ++ [⟨c, .reply place reply⟩], ∀ version, ¬m.Stores p place version)
    (receives : c.session.Receives p was.pending reply (.ok (.drafted draft))) :
    Account p (past ++ [⟨c, .reply place reply⟩]) place draft.result := by
  have idle := Session.receive_unapplied receives
  have endings := Session.receive_endings receives
  -- the result is not applied, so what is said of an applied one is void
  refine ⟨?_, iff_of_false (by simp [idle]) ?_, ?_, ?_⟩
  · intro applied
    rw [idle] at applied
    cases applied
  · rintro ⟨m, mem, version, stores⟩
    exact none m mem version stores
  · rcases endings with one | ⟨zero, -⟩
    · exact le_of_eq one
    · exact zero ▸ Nat.zero_le 1
  · intro zero
    rcases endings with one | ⟨-, response, plan, answered, parsed, empty⟩
    · rw [one] at zero
      cases zero
    · exact ⟨_, List.mem_append_right _ (List.mem_singleton_self _), reply, response, plan,
        ⟨rfl, was, held, waiting⟩, answered, parsed, empty⟩

/-- A turn that has committed its batch agrees. -/
theorem account_of_concluded {session : Session} {plan : Plan} {draft : Draft} (checks : p.engine.Checks)
    (orderly : c.session.timeline.Orderly first) (filled : plan.operations.isEmpty = false)
    (noted : was.Noted p past c.session.timeline place) (planned : was.stage = .planned plan)
    (concluded : (Session.conclude p was.pending plan).out c.session = (.ok draft, session))
    (after : (c.step p (.conclude place)).session = session) :
    Account p (past ++ [⟨c, .conclude place⟩]) place draft.result := by
  have one := Session.conclude_endings filled concluded
  -- until now the turn was open, so that its batch is the first thing that it can store
  have none := noted.open_ (.inr ⟨plan, planned⟩)
  have last : (⟨c, .conclude place⟩ : Moment) ∈ past ++ [⟨c, .conclude place⟩] :=
    List.mem_append_right _ (List.mem_singleton_self _)
  obtain ⟨-, -, -, effect⟩ := Session.conclude_eq_ok concluded
  refine ⟨?_, ?_, le_of_eq one, ?_⟩
  · intro applied
    obtain ⟨rejection, discarded⟩ := TurnResult.alone_of_applied (le_of_eq one) applied
    refine ⟨rejection, discarded, Session.conclude_checks checks concluded applied, ?_⟩
    rcases effect with ⟨-, idle⟩ | ⟨-, -, -, -, version, -⟩
    · rw [idle] at applied
      cases applied
    · obtain ⟨m, mem, begins, base⟩ := noted.begun
      exact ⟨m, List.mem_append_left _ mem, begins, by rw [version, base]⟩
  · rcases effect with ⟨stays, idle⟩ | ⟨-, advances, applied, -⟩
    · refine iff_of_false (by simp [idle]) ?_
      rintro ⟨m, mem, version, stores⟩
      have same : ((⟨c, .conclude place⟩ : Moment).after p).session.timeline = c.session.timeline := by
        rw [Moment.after, after, stays]
      exact not_stores_later none (Moment.not_stores_of_eq same place) m mem version stores
    · refine iff_of_true applied ⟨_, last, session.timeline.latest, rfl, ?_, ?_⟩
      · -- the version before the call was the latest one
        rw [← Bool.not_eq_true, orderly.isSome_at?_iff, advances.latest]
        omega
      · rw [Moment.after, after, session.timeline.at?_latest]
        rfl
  · intro zero
    rw [one] at zero
    cases zero

/-- A turn that goes on without changing the timeline presents the latest flowchart of the moment, or a version. -/
theorem presents_of_shows {draft : Draft} {t : Timeline} (goes : event.place? = some place) (shows : draft.Shows t)
    (same : draft.result.applied = false → t = c.session.timeline) : Presents (past ++ [⟨c, event⟩]) t place draft := by
  cases shows with
  | numbered recorded => exact .numbered recorded
  | unnumbered document idle =>
    cases same idle
    have last : (⟨c, event⟩ : Moment) ∈ past ++ [⟨c, event⟩] := List.mem_append_right _ (List.mem_singleton_self _)
    exact .unnumbered last goes document (document ▸ c.session.timeline.at?_latest) idle

/-- A turn that is closed agrees as before, and is torn if another version was stored since it went on. -/
theorem accounted_of_closed {draft : Draft} (orderly : c.session.timeline.Orderly first)
    (account : Account p past place draft.result) (presents : Presents past c.session.timeline place draft) :
    Accounted p (past ++ [⟨c, .close place⟩]) c.session.timeline place (draft.finish c.session.timeline.latest) := by
  have quiet := Moment.not_stores_of_eq (m := ⟨c, .close place⟩) (close_timeline (p := p) c place) place
  have account := account.later quiet
  cases presents with
  | numbered recorded => exact ⟨account, .inl recorded⟩
  | @unnumbered result m mem goes document found idle =>
    refine ⟨⟨?_, account.stored, account.once, account.idle⟩, ?_⟩
    · intro applied
      exact absurd (applied.symm.trans idle) (by decide)
    · have bound := (orderly.isSome_at?_iff.mp (Option.isSome_of_eq_some found)).2
      rcases Nat.eq_or_lt_of_le bound with same | later
      · rw [same] at found
        exact .inl ⟨_, rfl, found⟩
      · exact .inr ⟨m, List.mem_append_left _ mem, _, List.mem_append_right _ (List.mem_singleton_self _), goes, rfl,
          later, document, rfl, idle⟩

namespace Noted

theorem start (d : Document) (first : Nat) : Noted p first [] (start (.start d first)) where
  consistent := .start d first
  places m mem := by cases mem
  turns place turn found := by cases found

theorem step (reverts : p.engine.Reverts) (checks : p.engine.Checks) (noted : Noted p first past c) (event : Event) :
    Noted p first (past ++ [⟨c, event⟩]) (c.step p event) where
  consistent := noted.consistent.step event
  places := by
    refine List.forall_mem_append.mpr ⟨?_, List.forall_mem_singleton.mpr le_rfl⟩
    intro m mem
    exact (noted.places m mem).trans (c.length_step event)
  turns place turn found := by
    have orderly := noted.consistent.timeline
    -- however the turn goes on, it has begun where it did, and has stored nothing while it was open
    have begun {was : Turn} (held : c.turns[place]? = some was) (pending : turn.pending = was.pending) :
        ∃ m ∈ past ++ [⟨c, event⟩], m.Begins place ∧ m.before.session.timeline.latest = turn.pending.base := by
      obtain ⟨m, mem, begins⟩ := (noted.turns place was held).begun
      exact ⟨m, List.mem_append_left _ mem, pending ▸ begins⟩
    have open_ {was : Turn} (held : c.turns[place]? = some was)
        (going : was.stage = .waiting ∨ ∃ plan, was.stage = .planned plan)
        (same : (c.step p event).session.timeline = c.session.timeline) :=
      not_stores_later ((noted.turns place was held).open_ going) (Moment.not_stores_of_eq (m := ⟨c, event⟩) same place)
    cases step_moves found with
    | begins new base stage => exact noted_of_begun noted.places new base stage
    | stays held pending stage idle =>
      refine (noted.turns place _ held).later pending stage (fun _ _ => step_at? orderly event) ?_
      intro version stores
      have same : ((⟨c, event⟩ : Moment).after p).session.timeline = c.session.timeline := idle stores.1
      exact Moment.not_stores_of_eq same place version stores
    | plans held waiting _ pending stage =>
      have none := open_ held (.inl waiting) (by rw [reply_session])
      exact ⟨begun held pending, fun _ => none, by simp [stage], by simp [stage]⟩
    | drafts held waiting receives pending stage =>
      have none := open_ held (.inl waiting) (by rw [reply_session])
      refine ⟨begun held pending, fun _ => none, ?_, by simp [stage]⟩
      intro draft drafted
      cases stage.symm.trans drafted
      rw [reply_session]
      exact ⟨account_of_received held waiting none receives,
        presents_of_shows rfl (Session.receive_shows reverts receives) fun _ => rfl⟩
    | @commits plan _ _ _ was held planned concluded pending stage after =>
      -- a turn with an empty plan is drafted with its reply: this one has operations
      have fits := noted.consistent.turns was (List.mem_of_getElem? held)
      simp only [Turn.Fits, planned] at fits
      refine ⟨begun held pending, by simp [stage], ?_, by simp [stage]⟩
      intro draft drafted
      cases stage.symm.trans drafted
      rw [after]
      refine ⟨account_of_concluded checks orderly fits.2.1 (noted.turns place was held) planned concluded after,
        presents_of_shows rfl (Session.conclude_shows reverts concluded) ?_⟩
      intro idle
      rcases (Session.conclude_eq_ok concluded).2.2.2 with ⟨stays, -⟩ | ⟨-, -, applied, -⟩
      · rw [stays]
      · rw [idle] at applied
        cases applied
    | closes held drafted pending stage =>
      refine ⟨begun held pending, by simp [stage], by simp [stage], ?_⟩
      intro result gone
      cases stage.symm.trans gone
      obtain ⟨account, presents⟩ := (noted.turns place _ held).drafted _ drafted
      rw [close_timeline]
      exact accounted_of_closed orderly account presents
    | fails held pending stage => exact ⟨begun held pending, by simp [stage], by simp [stage], by simp [stage]⟩

theorem play (reverts : p.engine.Reverts) (checks : p.engine.Checks) (noted : Noted p first past c)
    (events : List Event) : Noted p first (past ++ c.moments p events) (c.play p events) := by
  induction events generalizing c past with
  | nil => simpa [moments, Chat.play] using noted
  | cons event events ih =>
    have later := ih (noted.step reverts checks event)
    rw [List.append_assoc] at later
    exact later

end Noted

/-- However sends, cancels, replies, commits and the edits of others interleave, every result agrees, and those that
name another version than the one they show are torn. -/
theorem accounted_play {catalog : Catalog} {annotates : Bool} (engine : p.engine = .batches catalog annotates)
    (d : Document) (first : Nat) (events : List Event) {result : TurnResult}
    (held : ((start (.start d first)).play p events).turns[place]? = some turn)
    (ended : turn.stage = .ended (.ok result)) :
    Accounted p ((start (.start d first)).moments p events)
      ((start (.start d first)).play p events).session.timeline place result := by
  have reverts : p.engine.Reverts := engine ▸ Engine.batches_reverts catalog annotates
  have checks : p.engine.Checks := engine ▸ Engine.batches_checks catalog annotates
  have noted := (Noted.start (p := p) d first).play reverts checks events
  exact (noted.turns place turn held).ended result ended

/-- A turn that was overtaken is drafted when its call has run out of time. -/
theorem play_late {before after : List Event} (held : (c.play p before).turns[place]? = some turn)
    (waiting : turn.stage = .waiting) (overtaken : turn.pending.generation ≠ (c.play p before).session.generation) :
    c.play p (before ++ .reply place .late :: after) =
      ((c.play p before).advance place turn (c.play p before).session false
        (.drafted (c.play p before).session.discarded)).play p after := by
  obtain ⟨strain, strained, -⟩ | ⟨-, out⟩ := Session.receive_overtaken (p := p) overtaken .late
  · rw [p.plan_late] at strained
    cases strained
  · have drafted : (c.play p before).step p (.reply place .late) = (c.play p before).advance place turn
        (c.play p before).session false (.drafted (c.play p before).session.discarded) := by
      simp [step, Chat.reply, held, waiting, out]
    rw [← drafted, Chat.play, List.foldl_append]
    rfl

/-- The result of a turn that has returned. -/
def Turn.result? (turn : Turn) : Option TurnResult :=
  match turn.stage with
  | .ended (.ok result) => some result
  | .ended (.error _) | .waiting | .planned _ | .drafted _ => none

theorem Turn.result?_eq_some {result : TurnResult} (returned : turn.result? = some result) :
    turn.stage = .ended (.ok result) := by
  unfold result? at returned
  split at returned
  next stage =>
    cases returned
    exact stage
  all_goals cases returned

/-- A turn that is overtaken after another client's commit shows the flowchart that the other has left. -/
theorem accounted_play_overtaken :
    let p : Planner := { catalog := .builtin, engine := .batches .builtin true }
    let events : List Event :=
      [.send "Add a log.", .edit (.commit 0 [.setViewport .absent] "desk"), .send "Add a delay.", .reply 0 .late,
        .close 0]
    ∃ turn result, ((start (.start .empty 0)).play p events).turns[0]? = some turn ∧
      turn.stage = .ended (.ok result) ∧ result.version = some 1 ∧
      Accounted p ((start (.start .empty 0)).moments p events)
        ((start (.start .empty 0)).play p events).session.timeline 0 result := by
  intro p events
  have shown : (((start (.start .empty 0)).play p events).turns[0]?.bind Turn.result?).bind TurnResult.version =
      some 1 := by
    have split : events = [.send "Add a log.", .edit (.commit 0 [.setViewport .absent] "desk"), .send "Add a delay."] ++
        .reply 0 .late :: [.close 0] := rfl
    rw [split, play_late rfl rfl (by decide +kernel)]
    decide +kernel
  obtain ⟨result, found, version⟩ := Option.bind_eq_some_iff.mp shown
  obtain ⟨turn, held, returned⟩ := Option.bind_eq_some_iff.mp found
  have ended := Turn.result?_eq_some returned
  exact ⟨turn, result, held, ended, version, accounted_play rfl .empty 0 events held ended⟩

/-- A turn is given up and shows the empty flowchart. Before it is closed another client adds a node, so that the result
bears the number of that client's version. -/
theorem torn_play :
    let p : Planner := { catalog := .builtin, engine := .batches .builtin true }
    let c := (start (.start .empty 0)).play p
      [.send "Add a log.", .send "Add a delay.", .reply 0 .late,
        .edit (.commit 0 [.addNode { nodeType := .value "trigger", id := .value "t" }] "desk"), .close 0]
    ∃ turn result, c.turns[0]? = some turn ∧ turn.stage = .ended (.ok result) ∧ result.version = some 1 ∧
      ¬result.RecordedIn c.session.timeline := by
  intro p c
  have split : c = (start (.start .empty 0)).play p ([.send "Add a log.", .send "Add a delay."] ++
      .reply 0 .late :: [.edit (.commit 0 [.addNode { nodeType := .value "trigger", id := .value "t" }] "desk"),
        .close 0]) := rfl
  rw [play_late rfl rfl (by decide +kernel)] at split
  obtain ⟨turn, result, held, returned, version, nodes⟩ : ∃ turn result, c.turns[0]? = some turn ∧
      turn.result? = some result ∧ result.version = some 1 ∧ result.document.nodes.items.length = 0 := by
    have shown : ((c.turns[0]?.bind Turn.result?).map fun r => (r.version, r.document.nodes.items.length)) =
        some (some 1, 0) := by
      rw [split]
      decide +kernel
    obtain ⟨result, found, same⟩ := Option.map_eq_some_iff.mp shown
    obtain ⟨turn, held, returned⟩ := Option.bind_eq_some_iff.mp found
    exact ⟨turn, result, held, returned, congrArg Prod.fst same, congrArg Prod.snd same⟩
  have stored : (c.session.timeline.at? 1).map (fun d => d.nodes.items.length) = some 1 := by
    rw [split]
    decide +kernel
  refine ⟨turn, result, held, Turn.result?_eq_some returned, version, ?_⟩
  rintro ⟨other, named, found⟩
  have same : other = 1 := by
    rw [version] at named
    exact (Int.ofNat_inj.mp (Option.some.inj named)).symm
  subst same
  rw [found] at stored
  simp [nodes] at stored

end Chat

end Flowchart
