import Flowchart.Assistant.Call
import Flowchart.Assistant.Plan
import Flowchart.Assistant.Prompt
import Flowchart.Versions.Timeline

/-!
# Turns of a chat

A turn asks the assistant for a plan and applies it, as a batch to a flowchart or as a change of a
timeline. An answer that is no plan, and a batch that is refused, leave the flowchart as it was and
are reported in the result. Only an assistant that is not available, an answer that strains its reader, and a
defect of the program, are failures of the turn.
-/

namespace Flowchart

/-- What came of a turn. -/
structure TurnResult where
  explanation : String
  document : Document
  applied : Bool := false
  report : Report := {}
  operations : List Operation := []
  rejection : Option ErrorReport := none
  version : Option Int := none
  discarded : Bool := false

def TurnResult.toJson (r : TurnResult) : Json :=
  .object [("explanation", .string r.explanation), ("flowchart", r.document.toJson),
    ("applied", .bool r.applied), ("operations", Operation.listToJson r.operations),
    ("findings", r.report.toJson), ("rejection", Json.nullable ErrorReport.toJson r.rejection),
    ("version", Json.nullable .int r.version), ("discarded", .bool r.discarded)]

/-- The result of a turn, before it is said of which version it is. -/
inductive Draft where
  | numbered (result : TurnResult)
  /-- The result shows the latest flowchart. The number of the latest version is still to be read. -/
  | unnumbered (result : TurnResult)

namespace Draft

def result : Draft → TurnResult
  | numbered result | unnumbered result => result

/-- The result, with the number that the latest version has by now. -/
def finish (latest : Nat) : Draft → TurnResult
  | numbered result => result
  | unnumbered result => { result with version := some (latest : Int) }

end Draft

/-- Who an assistant's changes are recorded for. -/
def assistantOrigin : String := "assistant"

/-- How turns are run. -/
structure Planner where
  catalog : Catalog
  engine : Engine
  exchanges : Int := 5
  limit : Float := 30
  /-- How many arrays and objects of a reply may be open at once, by what is left of the stack. -/
  room : Nat := 950

namespace Planner

/-- What the assistant is asked in a turn. -/
def prompt (p : Planner) (message : String) (d : Document) (conversation : List Message) : String :=
  userPrompt message d (recent conversation p.exchanges)

/-- The plan that a reply gives. -/
def plan (p : Planner) (reply : Reply) : Except NoPlan Plan := do
  Plan.load p.room (← (answerOf p.limit reply).mapError .unavailable)

/-- The result of a turn whose batch was refused. Errors that are no one's to recover from, and those
that are not reported, are the turn's own. -/
def refused (explanation : String) (d : Document) (failure : Failure) : Except Failure TurnResult :=
  match failure with
  | .reported report =>
    if report.kind.isRecoverable then .ok { explanation, document := d, rejection := some report }
    else .error (.reported report)
  | other => .error other

/-- The result of a turn whose batch was applied to the end. -/
def resultOf (plan : Plan) (o : Outcome) : TurnResult :=
  { explanation := plan.explanation
    document := o.document
    applied := o.committed
    report := o.report
    operations := o.applied
    rejection := o.rejection?
    version := o.version }

/-- Applies a plan to a flowchart. -/
def applyPlan (p : Planner) (plan : Plan) (d : Document) : Except Failure TurnResult :=
  if plan.operations.isEmpty then
    .ok { explanation := plan.explanation, document := d, report := validate p.catalog d }
  else
    match p.engine.apply d plan.operations with
    | .ok o => .ok (resultOf plan o)
    | .error failure => refused plan.explanation d failure

/-- Commits a plan to a timeline. One that is refused shows the latest flowchart. -/
def commitPlan (p : Planner) (plan : Plan) (base : Nat) : Act Timeline Draft := do
  if plan.operations.isEmpty then
    let d ← Act.ofExcept (((← getThe Timeline).get base).mapError TimelineError.failure)
    return .numbered { explanation := plan.explanation, document := d, report := validate p.catalog d
                       version := some base }
  else
    match ← Act.attempt (Timeline.commit p.engine base plan.operations assistantOrigin) with
    | .ok o => return .numbered (resultOf plan o)
    | .error failure =>
      let d := (← getThe Timeline).current
      return .unnumbered (← Act.ofExcept (refused plan.explanation d failure))

/-- What the user is told about an answer that is no plan. -/
def malformedExplanation (e : PlanError) : String :=
  s!"I could not turn that into changes to the flowchart ({e.message}). Nothing was changed."

/-- A turn on a flowchart, once the assistant has replied. -/
def chat (p : Planner) (d : Document) (reply : Reply) : Except Failure TurnResult :=
  match p.plan reply with
  | .ok plan => p.applyPlan plan d
  | .error (.malformed e) =>
    .ok { explanation := malformedExplanation e, document := d, report := validate p.catalog d
          rejection := some e.report }
  | .error (.unavailable report) => .error (.reported report)
  | .error (.strained strain) => .error strain.failure

end Planner

end Flowchart
