import Flowchart.Error
import Flowchart.Validation.Validate

/-!
# Findings on the nodes they are about

* `annotate`: a flowchart whose nodes carry the messages of their findings, and no others.
* `rejection`: the error that a report with errors becomes.
-/

namespace Flowchart

/-- A node with the messages of its findings. Without findings, messages from before are dropped. -/
def annotateNode (r : Report) (node : Node) : Node :=
  let findings := r.forNode node.id
  if findings.isEmpty then
    if node.errors.get?.isSome || node.warnings.get?.isSome then
      { node with errors := .absent, warnings := .absent }
    else node
  else
    { node with
      errors := .value ((findings.filter Finding.isError).map Finding.message)
      warnings := .value ((findings.filter fun f => !f.isError).map Finding.message) }

/-- A flowchart whose nodes carry their findings. -/
def annotate (r : Report) (d : Document) : Document :=
  { d with nodes := .of (d.nodes.items.map (annotateNode r)) }

/-- The error for a report, with details of its own. The message names the first error unless another
one is given. -/
def rejectionWith (details : Json.Fields) (r : Report) (message : String) : ErrorReport :=
  let first := match r.errors with
    | [] => "validation failed"
    | f :: _ => f.message
  .of .validationRejected (if message.isEmpty then s!"Mutation rejected: {first}" else message)
    (details.put "findings" r.toJson)

/-- The error for a report. -/
def rejection (r : Report) (message : String) : ErrorReport := rejectionWith [] r message

end Flowchart
