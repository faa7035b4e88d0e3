import Flowchart.Assistant.Planner

/-!
# Events

* `DocumentKey`: an owner and the id of one of the owner's flowcharts.
* `Event`: what the service tells those who listen.
-/

namespace Flowchart

structure DocumentKey where
  owner : String
  id : String
  deriving DecidableEq, Repr

def DocumentKey.fields (key : DocumentKey) : Json.Fields :=
  [("owner_id", .string key.owner), ("document_id", .string key.id)]

inductive Event where
  | saved (key : DocumentKey)
  | updated (key : DocumentKey)
  | deleted (key : DocumentKey)
  /-- A batch was applied to the end, to a stored flowchart if there is a key. -/
  | mutation (outcome : Outcome) (origin : String) (key : Option DocumentKey)
  /-- A turn came to its end, about a stored flowchart if there is a key. -/
  | chatTurn (result : TurnResult) (key : Option DocumentKey)

namespace Event

def name : Event → String
  | saved _ => "flowchart_saved"
  | updated _ => "flowchart_updated"
  | deleted _ => "flowchart_deleted"
  | mutation outcome _ _ => if outcome.committed then "mutation_committed" else "mutation_rejected"
  | chatTurn _ _ => "chat_turn"

def payload : Event → Json.Fields
  | saved key | updated key | deleted key => key.fields
  | mutation outcome origin key =>
    [("origin", .string origin), ("operations", .int outcome.applied.length),
      ("errors", .int outcome.report.errors.length),
      ("warnings", .int outcome.report.warnings.length),
      ("version", Json.nullable .int outcome.version)] ++
      (key.map DocumentKey.fields).getD []
  | chatTurn result key =>
    [("applied", .bool result.applied), ("rejected", .bool result.rejection.isSome)] ++
      match key with
      | none => []
      | some key => key.fields ++ [("version", Json.nullable .int result.version)]

def toJson (e : Event) : Json := .array [.string e.name, .object e.payload]

end Event

end Flowchart
