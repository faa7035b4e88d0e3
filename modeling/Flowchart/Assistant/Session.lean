import Flowchart.Assistant.Planner

/-!
# Chats over a timeline

`Session` joins a timeline with a conversation. A turn begins with the latest version and goes on when
the assistant has replied, in steps between which others may change the timeline:

* `Session.receive` takes the reply. A turn that was cancelled in between, or overtaken by the next one, is
  discarded: nothing is applied and nothing is remembered. Only a reply that strains its reader is a failure all the
  same.
* `Session.conclude` commits the batch of a plan. Where a turn is refused, the latest flowchart that it then shows is
  taken in the same step.
* `Session.close` ends the turn. A result that shows the latest flowchart gets its number only here, as the two are
  read one after the other.

`Session.answer` and `Session.resolve` close a turn at once.
-/

namespace Flowchart

structure Session where
  timeline : Timeline
  conversation : List Message := []
  /-- Counts the turns and cancellations; a turn of an earlier count is out of date. -/
  generation : Nat := 0

/-- A turn that waits for its reply. -/
structure PendingTurn where
  message : String
  generation : Nat
  base : Nat
  prompt : String

namespace Session

/-- Gives up the turn that waits for its reply, if there is one. -/
def cancel (s : Session) : Session := { s with generation := s.generation + 1 }

/-- Begins a turn on the latest version; the turn before it is given up. -/
def begin (p : Planner) (s : Session) (message : String) : Session × PendingTurn :=
  let s := s.cancel
  (s, { message, generation := s.generation, base := s.timeline.latest
        prompt := p.prompt message s.timeline.current s.conversation })

/-- Adds an exchange to the conversation. -/
def remember (s : Session) (message explanation : String) : Session :=
  { s with conversation := s.conversation ++ [⟨.user, message⟩, ⟨.assistant, explanation⟩] }

/-- Runs an action of the timeline. -/
def onTimeline (action : Act Timeline α) : Act Session α :=
  ExceptT.mk fun s =>
    let (result, timeline) := action.out s.timeline
    (result, { s with timeline })

/-- What a turn that is out of date comes to. -/
def discarded (s : Session) : Draft :=
  .unnumbered { explanation := "", document := s.timeline.current, discarded := true }

/-- What a reply leaves to do. -/
inductive Received where
  /-- The turn is to be closed. -/
  | drafted (draft : Draft)
  /-- The plan's batch is to be committed. -/
  | batch (plan : Plan)

/-- Takes the assistant's reply. No batch is left to commit if the turn is out of date, if the reply is no plan, and if
the plan has no operations or comes too late for the version it is based on. -/
def receive (p : Planner) (turn : PendingTurn) (reply : Reply) : Act Session Received := do
  let s ← get
  match p.plan reply with
  | .error (.strained strain) => throw strain.failure
  | .error (.unavailable report) =>
    if turn.generation ≠ s.generation then return .drafted s.discarded
    else throw (.reported report)
  | .error (.malformed e) =>
    if turn.generation ≠ s.generation then return .drafted s.discarded
    else return .drafted (.unnumbered { explanation := Planner.malformedExplanation e, document := s.timeline.current
                                        rejection := some e.report })
  | .ok plan =>
    if turn.generation ≠ s.generation then return .drafted s.discarded
    else if plan.operations.isEmpty ∨ turn.base ≠ s.timeline.latest then
      return .drafted (← onTimeline (p.commitPlan plan turn.base))
    else return .batch plan

/-- Commits the batch of a plan. -/
def conclude (p : Planner) (turn : PendingTurn) (plan : Plan) : Act Session Draft :=
  onTimeline (p.commitPlan plan turn.base)

/-- Ends a turn, and remembers it unless it was discarded. -/
def close (turn : PendingTurn) (draft : Draft) : Act Session TurnResult := do
  let result := draft.finish (← get).timeline.latest
  if !result.discarded then modify (remember · turn.message result.explanation)
  return result

/-! ### Several steps at once -/

/-- Takes the assistant's reply, and ends the turn unless its batch is still to be committed. -/
def answer (p : Planner) (turn : PendingTurn) (reply : Reply) : Act Session (TurnResult ⊕ Plan) := do
  match ← receive p turn reply with
  | .drafted draft => return .inl (← close turn draft)
  | .batch plan => return .inr plan

/-- Commits the batch of a plan and ends the turn. -/
def resolve (p : Planner) (turn : PendingTurn) (plan : Plan) : Act Session TurnResult := do
  close turn (← conclude p turn plan)

/-- Ends a turn with the assistant's reply. -/
def finish (p : Planner) (turn : PendingTurn) (reply : Reply) : Act Session TurnResult := do
  match ← answer p turn reply with
  | .inl result => return result
  | .inr plan => resolve p turn plan

end Session

end Flowchart
