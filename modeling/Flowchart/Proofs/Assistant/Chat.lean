import Flowchart.Proofs.Assistant.Turns
import Flowchart.Proofs.Versions.Order

/-!
# Turns that overlap

* `Chat`: a session, the turns that were begun in it, and those that have returned.
* `Chat.step`, `Chat.play`: messages and cancellations, replies to the turns under way, the steps that are left of them,
  and changes by hand, in any order. What happens to a turn in the meantime is noted beside it.
* `Chat.Becomes`, `Chat.step_becomes`: all that an event can make of a chat.
* `Chat.Consistent`: the session, which only counts, can tell what has happened to a turn.
  `Chat.Consistent.step` and `Chat.Consistent.play` keep that.
* `Chat.settled_play`: what becomes of turns that are overtaken, and what is remembered of the others.
-/

namespace Flowchart

namespace Chat

/-- What happens to a chat. A turn is known by its place among those that were begun. One that was
cancelled resumes with any reply. -/
inductive Event where
  | send (message : String)
  | cancel
  | reply (place : Nat) (reply : Reply)
  | conclude (place : Nat)
  | close (place : Nat)
  | edit (call : Timeline.Call)

/-- How far a turn has come. -/
inductive Stage where
  | waiting
  /-- The turn has resumed, and the batch of its plan is still to be committed. -/
  | planned (plan : Plan)
  /-- The turn is still to be closed. -/
  | drafted (draft : Draft)
  | ended (answer : Except Failure TurnResult)

/-- A turn, and what has happened since it began. -/
structure Turn where
  pending : PendingTurn
  stage : Stage := .waiting
  /-- A message was sent or the chat was cancelled before the turn resumed. -/
  overtaken : Bool := false
  /-- A version was stored before the turn's own batch was dealt with. -/
  outdated : Bool := false

def Turn.overtake (turn : Turn) : Turn :=
  match turn.stage with
  | .waiting => { turn with overtaken := true }
  | _ => turn

def Turn.outdate (stored : Bool) (turn : Turn) : Turn :=
  match turn.stage with
  | .waiting | .planned _ => { turn with outdated := turn.outdated || stored }
  | .drafted _ | .ended _ => turn

end Chat

structure Chat where
  session : Session
  turns : List Chat.Turn := []
  /-- The messages of the turns that have returned, with their results, in the order of their return. -/
  returned : List (String × TurnResult) := []

namespace Chat

def start (t : Timeline) : Chat := { session := { timeline := t } }

def send (p : Planner) (c : Chat) (message : String) : Chat :=
  let (session, pending) := c.session.begin p message
  { c with session, turns := c.turns.map Turn.overtake ++ [{ pending }] }

def cancel (c : Chat) : Chat :=
  { c with session := c.session.cancel, turns := c.turns.map Turn.overtake }

/-- A turn that fails does not return. -/
def returns (message : String) : Except Failure TurnResult → List (String × TurnResult)
  | .ok result => [(message, result)]
  | .error _ => []

/-- Takes the turn at a place on to another stage, in the session as that leaves it. The step has stored a version or
not. -/
def advance (c : Chat) (place : Nat) (turn : Turn) (session : Session) (stored : Bool) (stage : Stage) : Chat :=
  { c with session, turns := (c.turns.map (Turn.outdate stored)).set place { turn with stage } }

/-- Ends the turn at a place with its answer. -/
def settle (c : Chat) (place : Nat) (turn : Turn) (session : Session) (answer : Except Failure TurnResult) : Chat :=
  { c.advance place turn session false (.ended answer) with
    returned := c.returned ++ returns turn.pending.message answer }

/-- Resumes a turn that waits for its reply. -/
def reply (p : Planner) (c : Chat) (place : Nat) (reply : Reply) : Chat :=
  match c.turns[place]? with
  | none => c
  | some turn =>
    match turn.stage with
    | .waiting =>
      match (Session.receive p turn.pending reply).out c.session with
      | (.error failure, session) => c.settle place turn session (.error failure)
      | (.ok (.drafted draft), session) => c.advance place turn session false (.drafted draft)
      | (.ok (.batch plan), session) => c.advance place turn session false (.planned plan)
    | _ => c

/-- Commits the batch of a turn that has a plan. -/
def conclude (p : Planner) (c : Chat) (place : Nat) : Chat :=
  match c.turns[place]? with
  | none => c
  | some turn =>
    match turn.stage with
    | .planned plan =>
      match (Session.conclude p turn.pending plan).out c.session with
      | (.error failure, session) => c.settle place turn session (.error failure)
      | (.ok draft, session) => c.advance place turn session draft.result.applied (.drafted draft)
    | _ => c

/-- Ends a turn that is only to be closed. -/
def close (c : Chat) (place : Nat) : Chat :=
  match c.turns[place]? with
  | none => c
  | some turn =>
    match turn.stage with
    | .drafted draft =>
      let (answer, session) := (Session.close turn.pending draft).out c.session
      c.settle place turn session answer
    | _ => c

def edit (p : Planner) (c : Chat) (call : Timeline.Call) : Chat :=
  let (answer, timeline) := c.session.timeline.respond p.engine call
  { c with
    session := { c.session with timeline }
    turns := c.turns.map (Turn.outdate (Timeline.stored answer)) }

def step (p : Planner) (c : Chat) : Event → Chat
  | .send message => c.send p message
  | .cancel => c.cancel
  | .reply place reply => c.reply p place reply
  | .conclude place => c.conclude p place
  | .close place => c.close place
  | .edit call => c.edit p call

def play (p : Planner) (c : Chat) (events : List Event) : Chat := events.foldl (step p) c

/-! ### What an event makes of a chat -/

/-- All that an event can make of a chat. -/
inductive Becomes (p : Planner) (c : Chat) : Event → Chat → Prop where
  | sends (message : String) : Becomes p c (.send message) (c.send p message)
  | cancels : Becomes p c .cancel c.cancel
  | edits (call : Timeline.Call) : Becomes p c (.edit call) (c.edit p call)
  /-- There is no turn at the place, or it has come to another stage. -/
  | ignores (event : Event) : Becomes p c event c
  | breaks {place : Nat} {reply : Reply} {turn : Turn} {failure : Failure} (held : c.turns[place]? = some turn)
      (waiting : turn.stage = .waiting) (receives : c.session.Receives p turn.pending reply (.error failure)) :
      Becomes p c (.reply place reply) (c.settle place turn c.session (.error failure))
  | drafts {place : Nat} {reply : Reply} {turn : Turn} {draft : Draft} (held : c.turns[place]? = some turn)
      (waiting : turn.stage = .waiting) (receives : c.session.Receives p turn.pending reply (.ok (.drafted draft))) :
      Becomes p c (.reply place reply) (c.advance place turn c.session false (.drafted draft))
  | plans {place : Nat} {reply : Reply} {turn : Turn} {plan : Plan} (held : c.turns[place]? = some turn)
      (waiting : turn.stage = .waiting) (receives : c.session.Receives p turn.pending reply (.ok (.batch plan))) :
      Becomes p c (.reply place reply) (c.advance place turn c.session false (.planned plan))
  | fails {place : Nat} {turn : Turn} {plan : Plan} {failure : Failure} (held : c.turns[place]? = some turn)
      (planned : turn.stage = .planned plan)
      (failed : (Session.conclude p turn.pending plan).out c.session = (.error failure, c.session)) :
      Becomes p c (.conclude place) (c.settle place turn c.session (.error failure))
  | commits {place : Nat} {turn : Turn} {plan : Plan} {draft : Draft} {session : Session}
      (held : c.turns[place]? = some turn) (planned : turn.stage = .planned plan)
      (concluded : (Session.conclude p turn.pending plan).out c.session = (.ok draft, session)) :
      Becomes p c (.conclude place) (c.advance place turn session draft.result.applied (.drafted draft))
  | closes {place : Nat} {turn : Turn} {draft : Draft} (held : c.turns[place]? = some turn)
      (drafted : turn.stage = .drafted draft) :
      Becomes p c (.close place) (c.settle place turn
        (c.session.remembering turn.pending.message (draft.finish c.session.timeline.latest))
        (.ok (draft.finish c.session.timeline.latest)))

section

variable {p : Planner}

theorem reply_becomes (c : Chat) (place : Nat) (reply : Reply) :
    c.Becomes p (.reply place reply) (c.reply p place reply) := by
  unfold Chat.reply
  split
  next => exact .ignores _
  next turn held =>
    split
    next waiting =>
      obtain ⟨received, out, receives⟩ := Session.receive_cases p c.session turn.pending reply
      rw [out]
      rcases received with failure | ⟨draft⟩ | ⟨plan⟩
      · exact .breaks held waiting receives
      · exact .drafts held waiting receives
      · exact .plans held waiting receives
    next => exact .ignores _

theorem conclude_becomes (c : Chat) (place : Nat) : c.Becomes p (.conclude place) (c.conclude p place) := by
  unfold Chat.conclude
  split
  next => exact .ignores _
  next turn held =>
    split
    next plan planned =>
      rcases concluded : (Session.conclude p turn.pending plan).out c.session with ⟨failure | draft, session⟩
      · cases Session.conclude_eq_error concluded
        exact .fails held planned concluded
      · exact .commits held planned concluded
    next => exact .ignores _

theorem close_becomes (c : Chat) (place : Nat) : c.Becomes p (.close place) (c.close place) := by
  unfold Chat.close
  split
  next => exact .ignores _
  next turn held =>
    split
    next draft drafted =>
      rw [Session.close_out]
      exact .closes held drafted
    next => exact .ignores _

theorem step_becomes (c : Chat) (event : Event) : c.Becomes p event (c.step p event) := by
  cases event with
  | send message => exact .sends message
  | cancel => exact .cancels
  | edit call => exact .edits call
  | reply place reply => exact reply_becomes c place reply
  | conclude place => exact conclude_becomes c place
  | close place => exact close_becomes c place

end

/-! ### The invariant -/

/-- The messages of the turns that were not discarded, and what was explained to them. -/
def exchanges (returned : List (String × TurnResult)) : List (String × String) :=
  (returned.filter fun entry => !entry.2.discarded).map fun entry => (entry.1, entry.2.explanation)

/-- The messages of an exchange. -/
def spoken (exchange : String × String) : List Message :=
  [⟨.user, exchange.1⟩, ⟨.assistant, exchange.2⟩]

/-- The version that a turn began on shows whether another was stored since. -/
structure Turn.Dated (latest : Nat) (turn : Turn) : Prop where
  base : turn.pending.base ≤ latest
  outdated : turn.outdated = true ↔ turn.pending.base ≠ latest

/-- A turn is discarded if it was overtaken, and only then, and is applied only to the version it began on. -/
structure Turn.Accepts (turn : Turn) (result : TurnResult) : Prop where
  discarded : result.discarded = turn.overtaken
  applied : result.applied = true → turn.outdated = false

/-- A turn that was overtaken fails only if its reply strains its reader. -/
def Turn.Answered (turn : Turn) : Except Failure TurnResult → Prop
  | .ok result => turn.Accepts result
  | .error failure => turn.overtaken = true → ∃ strain : Json.Strain, failure = strain.failure

/-- The count that a turn began with shows whether it was overtaken. -/
def Turn.Fits (generation latest : Nat) (turn : Turn) : Prop :=
  match turn.stage with
  | .waiting => turn.pending.generation ≤ generation ∧
      (turn.overtaken = true ↔ turn.pending.generation ≠ generation) ∧ turn.Dated latest
  | .planned plan => turn.overtaken = false ∧ plan.operations.isEmpty = false ∧ turn.Dated latest
  | .drafted draft => turn.Accepts draft.result
  | .ended answer => turn.Answered answer

structure Consistent (first : Nat) (c : Chat) : Prop where
  timeline : c.session.timeline.Orderly first
  turns : ∀ turn ∈ c.turns, turn.Fits c.session.generation c.session.timeline.latest
  conversation : c.session.conversation = (exchanges c.returned).flatMap spoken

variable {p : Planner} {c : Chat} {first generation latest : Nat} {turn : Turn} {session : Session}
  {answer : Except Failure TurnResult}

theorem orderly_conclude {s after : Session} {pending : PendingTurn} {plan : Plan} {r : Except Failure Draft}
    (orderly : s.timeline.Orderly first) (concluded : (Session.conclude p pending plan).out s = (r, after)) :
    after.timeline.Orderly first := by
  have done := (Session.commitPlan_of_conclude concluded).1
  have kept := p.commitPlan_timeline plan s.timeline pending.base
  simp only [done] at kept
  obtain same | ⟨call, same⟩ := kept
  · rw [same]
    exact orderly
  · rw [same]
    exact (orderly.serves p.engine call).orderly orderly

theorem exchanges_append (returned later : List (String × TurnResult)) :
    exchanges (returned ++ later) = exchanges returned ++ exchanges later := by
  simp [exchanges]

theorem Turn.Fits.overtake (fits : turn.Fits generation latest) :
    turn.overtake.Fits (generation + 1) latest := by
  obtain ⟨pending, stage, overtaken, outdated⟩ := turn
  cases stage with
  | waiting =>
    obtain ⟨earlier, -, dated⟩ := fits
    refine ⟨Nat.le_succ_of_le earlier, iff_of_true rfl ?_, dated.base, dated.outdated⟩
    exact Nat.ne_of_lt (Nat.lt_succ_of_le earlier)
  | planned plan => exact fits
  | drafted draft => exact fits
  | ended answer => exact fits

theorem Turn.Dated.outdate (dated : turn.Dated latest) (stored : Bool) :
    Turn.Dated (if stored then latest + 1 else latest)
      { turn with outdated := turn.outdated || stored } := by
  obtain ⟨base, outdated⟩ := dated
  cases stored with
  | false => exact ⟨base, by simpa using outdated⟩
  | true =>
    refine ⟨Nat.le_succ_of_le base, iff_of_true (Bool.or_true _) ?_⟩
    exact Nat.ne_of_lt (Nat.lt_succ_of_le base)

theorem Turn.Fits.outdate (fits : turn.Fits generation latest) (stored : Bool) :
    (turn.outdate stored).Fits generation (if stored then latest + 1 else latest) := by
  obtain ⟨pending, stage, overtaken, outdated⟩ := turn
  cases stage with
  | waiting =>
    obtain ⟨earlier, counted, dated⟩ := fits
    exact ⟨earlier, counted, dated.outdate stored⟩
  | planned plan =>
    obtain ⟨resumed, filled, dated⟩ := fits
    exact ⟨resumed, filled, dated.outdate stored⟩
  | drafted draft => exact fits
  | ended answer => exact fits

namespace Consistent

theorem start (d : Document) (first : Nat) : (start (.start d first)).Consistent first where
  timeline := .start d first
  turns turn mem := by cases mem
  conversation := rfl

theorem overtake (consistent : c.Consistent first) :
    ∀ turn ∈ c.turns.map Turn.overtake,
      turn.Fits (c.session.generation + 1) c.session.timeline.latest := by
  intro turn mem
  obtain ⟨before, held, rfl⟩ := List.mem_map.mp mem
  exact (consistent.turns before held).overtake

theorem outdate (consistent : c.Consistent first) (stored : Bool) :
    ∀ turn ∈ c.turns.map (Turn.outdate stored), turn.Fits c.session.generation
      (if stored then c.session.timeline.latest + 1 else c.session.timeline.latest) := by
  intro turn mem
  obtain ⟨before, held, rfl⟩ := List.mem_map.mp mem
  exact (consistent.turns before held).outdate stored

theorem send (consistent : c.Consistent first) (message : String) : (c.send p message).Consistent first where
  timeline := consistent.timeline
  turns turn mem := by
    rcases List.mem_append.mp mem with old | new
    · exact consistent.overtake turn old
    · obtain rfl := List.mem_singleton.mp new
      have counted : (false = true) ↔ c.session.generation + 1 ≠ c.session.generation + 1 := by simp
      have based : (false = true) ↔ c.session.timeline.latest ≠ c.session.timeline.latest := by simp
      exact ⟨Nat.le_refl _, counted, Nat.le_refl _, based⟩
  conversation := consistent.conversation

theorem cancel (consistent : c.Consistent first) : c.cancel.Consistent first where
  timeline := consistent.timeline
  turns := consistent.overtake
  conversation := consistent.conversation

theorem edit (consistent : c.Consistent first) (call : Timeline.Call) : (c.edit p call).Consistent first := by
  have served := consistent.timeline.serves p.engine call
  refine ⟨served.orderly consistent.timeline, ?_, consistent.conversation⟩
  intro turn mem
  have fits := consistent.outdate (Timeline.stored (c.session.timeline.respond p.engine call).1) turn mem
  rw [← served.latest_eq] at fits
  exact fits

/-- A turn that goes on keeps the order, if its new stage agrees with what has happened and the conversation stays as
it is. -/
theorem advance (consistent : c.Consistent first) {place : Nat} {stored : Bool} {stage : Stage}
    (orderly : session.timeline.Orderly first) (generation : session.generation = c.session.generation)
    (latest : session.timeline.latest =
      if stored then c.session.timeline.latest + 1 else c.session.timeline.latest)
    (fits : Turn.Fits session.generation session.timeline.latest { turn with stage })
    (conversation : session.conversation = c.session.conversation) :
    (c.advance place turn session stored stage).Consistent first where
  timeline := orderly
  turns other mem := by
    rcases List.mem_or_eq_of_mem_set mem with old | rfl
    · have kept := consistent.outdate stored other old
      rw [← latest, ← generation] at kept
      exact kept
    · exact fits
  conversation := conversation.trans consistent.conversation

/-- A turn that ends keeps the order, if its answer agrees with what has happened and the session has remembered it. -/
theorem settle (consistent : c.Consistent first) {place : Nat} (timeline : session.timeline = c.session.timeline)
    (generation : session.generation = c.session.generation) (answered : turn.Answered answer)
    (remembered : session.conversation =
      c.session.conversation ++ (exchanges (returns turn.pending.message answer)).flatMap spoken) :
    (c.settle place turn session answer).Consistent first where
  timeline := timeline ▸ consistent.timeline
  turns other mem := by
    rcases List.mem_or_eq_of_mem_set mem with old | rfl
    · have kept := consistent.outdate false other old
      rw [← generation, if_neg (by decide), ← timeline] at kept
      exact kept
    · cases answer with
      | ok result => exact ⟨answered.discarded, answered.applied⟩
      | error failure => exact answered
  conversation := by
    show session.conversation = _
    rw [remembered, consistent.conversation, Chat.settle, exchanges_append, List.flatMap_append]

/-- A turn that ends without a result has nothing to be remembered. -/
theorem fail (consistent : c.Consistent first) {place : Nat} {failure : Failure}
    (answered : turn.Answered (.error failure)) : (c.settle place turn c.session (.error failure)).Consistent first :=
  consistent.settle rfl rfl answered (by simp [returns, exchanges])

/-- The count tells whether a waiting turn was overtaken, and its version whether it is outdated. -/
theorem waiting (consistent : c.Consistent first) {place : Nat} (held : c.turns[place]? = some turn)
    (waiting : turn.stage = .waiting) :
    (turn.overtaken = true ↔ turn.pending.generation ≠ c.session.generation) ∧
      turn.Dated c.session.timeline.latest := by
  have fits := consistent.turns turn (List.mem_of_getElem? held)
  simp only [Turn.Fits, waiting] at fits
  exact fits.2

theorem kept (consistent : c.Consistent first) {place : Nat} (held : c.turns[place]? = some turn)
    (waiting : turn.stage = .waiting) (current : turn.pending.generation = c.session.generation) :
    turn.overtaken = false := by
  simpa [current] using (consistent.waiting held waiting).1

/-- A turn that was overtaken fails only if its reply strains the reader. -/
theorem answered (consistent : c.Consistent first) {place : Nat} {reply : Reply} {failure : Failure}
    (held : c.turns[place]? = some turn) (waiting : turn.stage = .waiting)
    (receives : c.session.Receives p turn.pending reply (.error failure)) : turn.Answered (.error failure) := by
  cases receives with
  | strained => exact fun _ => ⟨_, rfl⟩
  | unavailable current => simp [Turn.Answered, consistent.kept held waiting current]
  | failed current => simp [Turn.Answered, consistent.kept held waiting current]

/-- A turn that is drafted with its reply is discarded if it was overtaken. -/
theorem accepts (consistent : c.Consistent first) {place : Nat} {reply : Reply} {draft : Draft}
    (held : c.turns[place]? = some turn) (waiting : turn.stage = .waiting)
    (receives : c.session.Receives p turn.pending reply (.ok (.drafted draft))) : turn.Accepts draft.result := by
  refine ⟨?_, by simp [Session.receive_unapplied receives]⟩
  by_cases current : turn.pending.generation = c.session.generation
  · rw [Session.receive_kept current receives, consistent.kept held waiting current]
  · have overtaken := (consistent.waiting held waiting).1.mpr current
    cases receives with
    | overtaken => exact overtaken.symm
    | malformed same => exact absurd same current
    | idle same => exact absurd same current

theorem commit (consistent : c.Consistent first) {place : Nat} {plan : Plan} {draft : Draft}
    (held : c.turns[place]? = some turn) (planned : turn.stage = .planned plan)
    (concluded : (Session.conclude p turn.pending plan).out c.session = (.ok draft, session)) :
    (c.advance place turn session draft.result.applied (.drafted draft)).Consistent first := by
  have fits := consistent.turns turn (List.mem_of_getElem? held)
  simp only [Turn.Fits, planned] at fits
  obtain ⟨resumed, -, dated⟩ := fits
  have orderly := orderly_conclude consistent.timeline concluded
  obtain ⟨only, -, kept, effect⟩ := Session.conclude_eq_ok concluded
  have generation : session.generation = c.session.generation := by rw [only]
  have conversation : session.conversation = c.session.conversation := by rw [only]
  obtain ⟨stays, idle⟩ | ⟨based, advances, applied, -⟩ := effect
  · refine consistent.advance orderly generation ?_ ⟨kept.trans resumed.symm, by simp [idle]⟩ conversation
    simp [idle, stays]
  · refine consistent.advance orderly generation ?_ ⟨kept.trans resumed.symm, fun _ => ?_⟩ conversation
    · simp [applied, advances.latest]
    · simpa [based] using dated.outdated

theorem close (consistent : c.Consistent first) {place : Nat} {draft : Draft} (held : c.turns[place]? = some turn)
    (drafted : turn.stage = .drafted draft) :
    (c.settle place turn (c.session.remembering turn.pending.message (draft.finish c.session.timeline.latest))
      (.ok (draft.finish c.session.timeline.latest))).Consistent first := by
  have fits := consistent.turns turn (List.mem_of_getElem? held)
  simp only [Turn.Fits, drafted] at fits
  refine consistent.settle (by simp) (by simp) ⟨by simp [fits.discarded], by simpa using fits.applied⟩ ?_
  cases discarded : draft.result.discarded with
  | true => simp [returns, exchanges, discarded, Session.remembering]
  | false => simp [returns, exchanges, discarded, spoken, Session.remembering, Session.remember]

theorem step (consistent : c.Consistent first) (event : Event) : (c.step p event).Consistent first := by
  have becomes := step_becomes (p := p) c event
  generalize c.step p event = after at becomes ⊢
  cases becomes with
  | sends message => exact consistent.send message
  | cancels => exact consistent.cancel
  | edits call => exact consistent.edit call
  | ignores => exact consistent
  | breaks held waiting receives => exact consistent.fail (consistent.answered held waiting receives)
  | drafts held waiting receives =>
    obtain ⟨discarded, applied⟩ := consistent.accepts held waiting receives
    exact consistent.advance consistent.timeline rfl rfl ⟨discarded, applied⟩ rfl
  | plans held waiting receives =>
    obtain ⟨current, -, filled⟩ := Session.receive_current receives
    have resumed := consistent.kept held waiting current
    have dated := (consistent.waiting held waiting).2
    exact consistent.advance consistent.timeline rfl rfl ⟨resumed, filled, dated.base, dated.outdated⟩ rfl
  | fails held planned =>
    have fits := consistent.turns _ (List.mem_of_getElem? held)
    simp only [Turn.Fits, planned] at fits
    exact consistent.fail (by simp [Turn.Answered, fits.1])
  | commits held planned concluded => exact consistent.commit held planned concluded
  | closes held drafted => exact consistent.close held drafted

theorem play (consistent : c.Consistent first) (events : List Event) :
    (c.play p events).Consistent first := by
  induction events generalizing c with
  | nil => exact consistent
  | cons event events ih => exact ih (consistent.step event)

end Consistent

/-! ### What becomes of turns -/

theorem drop_flatMap_spoken (exchanges : List (String × String)) (count : Nat) :
    (exchanges.flatMap spoken).drop (2 * count) = (exchanges.drop count).flatMap spoken := by
  induction exchanges generalizing count with
  | nil => simp
  | cons exchange exchanges ih =>
    cases count with
    | zero => rfl
    | succ count => exact ih count

theorem length_flatMap_spoken (exchanges : List (String × String)) :
    (exchanges.flatMap spoken).length = 2 * exchanges.length := by
  simp [List.length_flatMap, spoken, Nat.mul_comm]

theorem recent_flatMap_spoken (exchanges : List (String × String)) (count : Int) :
    recent (exchanges.flatMap spoken) count =
      (exchanges.drop (exchanges.length - count.toNat)).flatMap spoken := by
  rw [recent, length_flatMap_spoken, ← Nat.mul_sub, drop_flatMap_spoken]

theorem role_of_head?_flatMap_spoken {exchanges : List (String × String)} {message : Message}
    (first : (exchanges.flatMap spoken).head? = some message) : message.role = .user := by
  cases exchanges with
  | nil => cases first
  | cons exchange exchanges =>
    cases first
    rfl

/-- A turn has met a version that was stored in the meantime, and is rejected for it. -/
structure Conflicts (result : TurnResult) : Prop where
  applied : result.applied = false
  rejection : ∃ report, result.rejection = some report ∧ report.kind = .versionConflict

/-- What becomes of the turns of a chat, and what is remembered of them. -/
structure Settled (p : Planner) (c : Chat) : Prop where
  /-- A turn that is overtaken before it resumes is discarded and changes nothing, unless its reply strains the reader:
  then it fails. -/
  overtaken : ∀ turn ∈ c.turns, turn.stage = .waiting → turn.overtaken = true → ∀ reply,
    (∃ strain, p.plan reply = .error (.strained strain) ∧
        (Session.receive p turn.pending reply).out c.session = (.error strain.failure, c.session)) ∨
      (∀ strain, p.plan reply ≠ .error (.strained strain)) ∧ ∃ draft,
        (Session.receive p turn.pending reply).out c.session = (.ok (.drafted draft), c.session) ∧
          draft.result.discarded = true
  /-- A turn that is closed leaves the timeline as it was, and one that was overtaken the conversation too. -/
  closing : ∀ turn ∈ c.turns, ∀ draft, turn.stage = .drafted draft → ∃ result after,
    (Session.close turn.pending draft).out c.session = (.ok result, after) ∧ turn.Accepts result ∧
      after.timeline = c.session.timeline ∧ (turn.overtaken = true → after = c.session)
  answered : ∀ turn ∈ c.turns, ∀ answer, turn.stage = .ended answer → turn.Answered answer
  late : ∀ turn ∈ c.turns, turn.stage = .waiting → turn.overtaken = false → turn.outdated = true →
    ∀ reply plan, p.plan reply = .ok plan → plan.operations ≠ [] → ∃ draft,
      (Session.receive p turn.pending reply).out c.session = (.ok (.drafted draft), c.session) ∧
        Conflicts draft.result
  /-- The version may also be stored after the turn has resumed. -/
  lateBatch : ∀ turn ∈ c.turns, ∀ plan, turn.stage = .planned plan → turn.outdated = true → ∃ draft,
    (Session.conclude p turn.pending plan).out c.session = (.ok draft, c.session) ∧ Conflicts draft.result
  conversation : c.session.conversation = (exchanges c.returned).flatMap spoken
  recent : ∀ count : Int, ∃ last, last <:+ exchanges c.returned ∧
    last.length = min count.toNat (exchanges c.returned).length ∧
    recent c.session.conversation count = last.flatMap spoken ∧
    ∀ message, (recent c.session.conversation count).head? = some message → message.role = .user

theorem Consistent.settled (consistent : c.Consistent first) : c.Settled p where
  overtaken turn mem waiting overtaken reply := by
    have fits := consistent.turns turn mem
    simp only [Turn.Fits, waiting] at fits
    obtain strained | ⟨readable, out⟩ := Session.receive_overtaken (p := p) (fits.2.1.mp overtaken) reply
    · exact .inl strained
    · exact .inr ⟨readable, _, out, rfl⟩
  closing turn mem draft drafted := by
    have fits := consistent.turns turn mem
    simp only [Turn.Fits, drafted] at fits
    refine ⟨_, _, Session.close_out _ _ _, ⟨by simp [fits.discarded], by simpa using fits.applied⟩, by simp, ?_⟩
    intro overtaken
    simp [Session.remembering, fits.discarded, overtaken]
  answered turn mem answer ended := by
    have fits := consistent.turns turn mem
    simpa only [Turn.Fits, ended] using fits
  late turn mem waiting kept outdated reply plan given filled := by
    have fits := consistent.turns turn mem
    simp only [Turn.Fits, waiting] at fits
    obtain ⟨-, counted, dated⟩ := fits
    have current : turn.pending.generation = c.session.generation := by simpa [kept] using counted
    have received := Session.receive_late current given (by simpa using filled) (dated.outdated.mp outdated)
    exact ⟨_, received, rfl, _, rfl, rfl⟩
  lateBatch turn mem plan planned outdated := by
    have fits := consistent.turns turn mem
    simp only [Turn.Fits, planned] at fits
    obtain ⟨-, filled, dated⟩ := fits
    exact ⟨_, Session.conclude_late filled (dated.outdated.mp outdated), rfl, _, rfl, rfl⟩
  conversation := consistent.conversation
  recent count := by
    have said := recent_flatMap_spoken (exchanges c.returned) count
    rw [← consistent.conversation] at said
    refine ⟨_, List.drop_suffix _ _, ?_, said, ?_⟩
    · rw [List.length_drop]
      omega
    · rw [said]
      intro message
      exact role_of_head?_flatMap_spoken

/-- However messages, cancellations, replies and changes by hand come in between each other: turns that
are overtaken are discarded or fail as their replies strain the reader, turns that are late are rejected, and the others
are remembered. -/
theorem settled_play (p : Planner) (d : Document) (first : Nat) (events : List Event) :
    ((Chat.start (.start d first)).play p events).Settled p :=
  ((Consistent.start d first).play events).settled

end Chat

end Flowchart
