import Flowchart.Proofs.Assistant.Chat

/-!
# What happens to the turns of a chat

* `Chat.Moment`, `Chat.moments`: the events of a run, each with the chat that it came to. On which version a turn was
  begun, which reply it has resumed with and what it has stored is read off them.
* `Chat.Moves`, `Chat.step_moves`: all that an event does to the turn at a place.
* `Chat.length_step`, `Chat.step_timeline`, `Chat.step_at?`: what every event keeps.
-/

namespace Flowchart

namespace Chat

/-- An event, and the chat that it came to. -/
structure Moment where
  before : Chat
  event : Event

/-- The events of a run, in order. -/
def moments (p : Planner) : Chat → List Event → List Moment
  | _, [] => []
  | c, event :: events => ⟨c, event⟩ :: moments p (c.step p event) events

/-- The place of the turn that goes on with an event. -/
def Event.place? : Event → Option Nat
  | .reply place _ | .conclude place | .close place => some place
  | .send _ | .cancel | .edit _ => none

namespace Moment

def after (p : Planner) (m : Moment) : Chat := m.before.step p m.event

/-- The turn at the place begins. -/
def Begins (m : Moment) (place : Nat) : Prop :=
  (∃ message, m.event = .send message) ∧ m.before.turns.length = place

/-- The turn at the place was waiting, and resumes with the reply. -/
def Resumes (m : Moment) (place : Nat) (reply : Reply) : Prop :=
  m.event = .reply place reply ∧ ∃ turn, m.before.turns[place]? = some turn ∧ turn.stage = .waiting

/-- The turn at the place stores a version. -/
def Stores (p : Planner) (m : Moment) (place version : Nat) : Prop :=
  m.event.place? = some place ∧ (m.before.session.timeline.at? version).isSome = false ∧
    ((m.after p).session.timeline.at? version).isSome = true

end Moment

/-! ### What an event does to a turn -/

/-- What an event makes of the turn at a place. -/
inductive Moves (p : Planner) (c : Chat) (place : Nat) : Event → Turn → Prop
  | begins {message turn} (new : c.turns.length = place) (base : turn.pending.base = c.session.timeline.latest)
      (stage : turn.stage = .waiting) : Moves p c place (.send message) turn
  /-- The turn does not go on with the event, or not with that event. -/
  | stays {event turn was} (found : c.turns[place]? = some was) (pending : turn.pending = was.pending)
      (stage : turn.stage = was.stage)
      (idle : event.place? = some place → (c.step p event).session.timeline = c.session.timeline) :
      Moves p c place event turn
  | plans {reply plan turn was} (found : c.turns[place]? = some was) (waiting : was.stage = .waiting)
      (receives : c.session.Receives p was.pending reply (.ok (.batch plan))) (pending : turn.pending = was.pending)
      (stage : turn.stage = .planned plan) : Moves p c place (.reply place reply) turn
  | drafts {reply draft turn was} (found : c.turns[place]? = some was) (waiting : was.stage = .waiting)
      (receives : c.session.Receives p was.pending reply (.ok (.drafted draft))) (pending : turn.pending = was.pending)
      (stage : turn.stage = .drafted draft) : Moves p c place (.reply place reply) turn
  | commits {plan draft session turn was} (found : c.turns[place]? = some was) (planned : was.stage = .planned plan)
      (concluded : (Session.conclude p was.pending plan).out c.session = (.ok draft, session))
      (pending : turn.pending = was.pending) (stage : turn.stage = .drafted draft)
      (after : (c.step p (.conclude place)).session = session) : Moves p c place (.conclude place) turn
  | closes {draft turn was} (found : c.turns[place]? = some was) (drafted : was.stage = .drafted draft)
      (pending : turn.pending = was.pending)
      (stage : turn.stage = .ended (.ok (draft.finish c.session.timeline.latest))) :
      Moves p c place (.close place) turn
  | fails {event failure turn was} (found : c.turns[place]? = some was) (pending : turn.pending = was.pending)
      (stage : turn.stage = .ended (.error failure)) : Moves p c place event turn

variable {p : Planner} {c : Chat} {first place at_ : Nat} {turn was : Turn} {event : Event}

@[simp] theorem Turn.overtake_pending (turn : Turn) : turn.overtake.pending = turn.pending := by
  cases stage : turn.stage <;> simp [overtake, stage]

@[simp] theorem Turn.overtake_stage (turn : Turn) : turn.overtake.stage = turn.stage := by
  cases stage : turn.stage <;> simp [overtake, stage]

@[simp] theorem Turn.outdate_pending (stored : Bool) (turn : Turn) :
    (turn.outdate stored).pending = turn.pending := by
  cases stage : turn.stage <;> simp [outdate, stage]

@[simp] theorem Turn.outdate_stage (stored : Bool) (turn : Turn) : (turn.outdate stored).stage = turn.stage := by
  cases stage : turn.stage <;> simp [outdate, stage]

/-- Only the turn that goes on has got another stage. -/
theorem getElem?_advance {other : Nat} {session : Session} {stored : Bool} {stage : Stage}
    (held : c.turns[place]? = some was) (found : (c.advance place was session stored stage).turns[other]? = some turn) :
    (other = place ∧ turn = { was with stage }) ∨
      other ≠ place ∧ ∃ before, c.turns[other]? = some before ∧ turn = before.outdate stored := by
  have bound : place < c.turns.length := (List.getElem?_eq_some_iff.mp held).1
  simp only [advance, List.getElem?_set, List.length_map] at found
  by_cases here : place = other
  · rw [if_pos here, if_pos bound] at found
    exact .inl ⟨here.symm, (Option.some.inj found).symm⟩
  · rw [if_neg here, List.getElem?_map, Option.map_eq_some_iff] at found
    obtain ⟨before, found, rfl⟩ := found
    exact .inr ⟨Ne.symm here, before, found, rfl⟩

/-- A turn that is not at the place of the event stays as it is. -/
theorem advance_moves {session : Session} {stored : Bool} {stage : Stage} (goes : event.place? = some at_)
    (held : c.turns[at_]? = some was) (found : (c.advance at_ was session stored stage).turns[place]? = some turn)
    (moves : place = at_ → turn.pending = was.pending → turn.stage = stage → c.Moves p place event turn) :
    c.Moves p place event turn := by
  obtain ⟨here, rfl⟩ | ⟨apart, before, there, rfl⟩ := getElem?_advance held found
  · exact moves here rfl rfl
  · refine .stays there (before.outdate_pending _) (before.outdate_stage _) ?_
    intro same
    exact absurd (Option.some.inj (same.symm.trans goes)) apart

theorem settle_moves {session : Session} {answer : Except Failure TurnResult} (goes : event.place? = some at_)
    (held : c.turns[at_]? = some was) (found : (c.settle at_ was session answer).turns[place]? = some turn)
    (moves : place = at_ → turn.pending = was.pending → turn.stage = .ended answer → c.Moves p place event turn) :
    c.Moves p place event turn := by
  have found : (c.advance at_ was session false (.ended answer)).turns[place]? = some turn := found
  exact advance_moves goes held found moves

/-- Turns that an event only overtakes or outdates stay as they are. -/
theorem map_moves {f : Turn → Turn} (pending : ∀ turn, (f turn).pending = turn.pending)
    (stage : ∀ turn, (f turn).stage = turn.stage) (goes : event.place? = none)
    (found : (c.turns.map f)[place]? = some turn) : c.Moves p place event turn := by
  rw [List.getElem?_map, Option.map_eq_some_iff] at found
  obtain ⟨before, found, rfl⟩ := found
  refine .stays found (pending before) (stage before) ?_
  intro same
  rw [goes] at same
  cases same

theorem step_moves (found : (c.step p event).turns[place]? = some turn) : c.Moves p place event turn := by
  have becomes := step_becomes (p := p) c event
  generalize same : c.step p event = after at becomes found
  cases becomes with
  | sends message =>
    rw [Chat.send, List.getElem?_append] at found
    split at found
    next => exact map_moves Turn.overtake_pending Turn.overtake_stage rfl found
    next past =>
      rw [List.length_map] at past found
      obtain ⟨bound, rfl⟩ := List.getElem?_eq_some_iff.mp found
      simp only [List.length_singleton, Nat.lt_one_iff] at bound
      have new : c.turns.length = place := by omega
      simp only [List.getElem_singleton]
      exact .begins new rfl rfl
  | cancels => exact map_moves Turn.overtake_pending Turn.overtake_stage rfl found
  | edits call => exact map_moves (Turn.outdate_pending _) (Turn.outdate_stage _) rfl found
  | ignores => exact .stays found rfl rfl fun _ => by rw [same]
  | breaks held =>
    refine settle_moves rfl held found ?_
    rintro rfl pending stage
    exact .fails held pending stage
  | drafts held waiting receives =>
    refine advance_moves rfl held found ?_
    rintro rfl pending stage
    exact .drafts held waiting receives pending stage
  | plans held waiting receives =>
    refine advance_moves rfl held found ?_
    rintro rfl pending stage
    exact .plans held waiting receives pending stage
  | fails held =>
    refine settle_moves rfl held found ?_
    rintro rfl pending stage
    exact .fails held pending stage
  | commits held planned concluded =>
    refine advance_moves rfl held found ?_
    rintro rfl pending stage
    exact .commits held planned concluded pending stage (by rw [same]; rfl)
  | closes held drafted =>
    refine settle_moves rfl held found ?_
    rintro rfl pending stage
    exact .closes held drafted pending stage

/-! ### What every event keeps -/

/-- No turn is forgotten. -/
theorem length_step (c : Chat) (event : Event) : c.turns.length ≤ (c.step p event).turns.length := by
  have becomes := step_becomes (p := p) c event
  generalize c.step p event = after at becomes ⊢
  cases becomes with
  | sends => simp [Chat.send]
  | cancels => simp [Chat.cancel]
  | edits => simp [Chat.edit]
  | ignores => exact le_rfl
  | breaks => simp [settle, advance]
  | drafts => simp [advance]
  | plans => simp [advance]
  | fails => simp [settle, advance]
  | commits => simp [advance]
  | closes => simp [settle, advance]

/-- A reply leaves the session as it is. -/
theorem reply_session (c : Chat) (at_ : Nat) (reply : Reply) : (c.step p (.reply at_ reply)).session = c.session := by
  have becomes := reply_becomes (p := p) c at_ reply
  rw [step]
  generalize c.reply p at_ reply = after at becomes ⊢
  cases becomes with
  | ignores => rfl
  | breaks => rfl
  | drafts => rfl
  | plans => rfl

/-- A turn that is closed leaves the timeline as it is. -/
theorem close_timeline (c : Chat) (at_ : Nat) : (c.step p (.close at_)).session.timeline = c.session.timeline := by
  have becomes := close_becomes (p := p) c at_
  rw [step]
  generalize c.close at_ = after at becomes ⊢
  cases becomes with
  | ignores => rfl
  | closes => exact Session.remembering_timeline _ _ _

/-- An event leaves the timeline as it is, or makes one call of it. -/
theorem step_timeline (c : Chat) (event : Event) :
    (c.step p event).session.timeline = c.session.timeline ∨
      ∃ call, (c.step p event).session.timeline = (c.session.timeline.respond p.engine call).2 := by
  have becomes := step_becomes (p := p) c event
  generalize c.step p event = after at becomes ⊢
  cases becomes with
  | sends => exact .inl rfl
  | cancels => exact .inl rfl
  | edits call => exact .inr ⟨call, rfl⟩
  | ignores => exact .inl rfl
  | breaks => exact .inl rfl
  | drafts => exact .inl rfl
  | plans => exact .inl rfl
  | fails => exact .inl rfl
  | @commits _ turn plan _ _ _ _ concluded =>
    have kept := p.commitPlan_timeline plan c.session.timeline turn.pending.base
    rw [(Session.commitPlan_of_conclude concluded).1] at kept
    exact kept
  | closes => exact .inl (Session.remembering_timeline _ _ _)

/-- No version is changed. -/
theorem step_at? (orderly : c.session.timeline.Orderly first) (event : Event) {version : Nat} {d : Document}
    (found : c.session.timeline.at? version = some d) :
    (c.step p event).session.timeline.at? version = some d := by
  rcases step_timeline (p := p) c event with same | ⟨call, served⟩
  · rw [same]
    exact found
  · rw [served]
    exact (orderly.serves p.engine call).at?_eq orderly found

end Chat

end Flowchart
