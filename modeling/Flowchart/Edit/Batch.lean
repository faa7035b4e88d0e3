import Flowchart.Edit.Editor
import Flowchart.Validation.Annotate

/-!
# Batches of operations

A batch is applied whole or not at all. Its operations are applied in order to a working copy, which
is then validated once. A flowchart with errors is discarded for the one that the batch was applied
to; any other becomes the new one, with the findings on its nodes.
-/

namespace Flowchart

namespace Operation

/-- The operations that one stands for: a node's connections are removed before the node. -/
def expand (e : Editor) (operation : Operation) : List Operation :=
  match operation with
  | removeNode node =>
    if e.hasNode node then
      (e.document.incident node).map (fun c => removeConnection c.id) ++ [removeNode node]
    else [removeNode node]
  | other => [other]

/-- Applies one operation as it stands. The operation that is recorded says which id and class a new
connection has got. -/
def applyTo (catalog : Catalog) (e : Editor) (operation : Operation) :
    Except EditError (Editor × Operation) :=
  let record (edited : Except EditError Editor) := edited.map fun e => (e, operation)
  match operation with
  | addNode a =>
    match a.node.get? with
    | some node => record (e.addNode node)
    | none =>
      record (e.addNodeOfType catalog (a.nodeType.get?.getD "") (a.id.get?.getD "")
        (a.position.get?.getD ⟨0, 0⟩) a.label.get? (a.data.get?.getD []))
  | removeNode node => record (e.removeNode node)
  | updateNodeData node patch => record (e.updateNodeData node patch)
  | updateNode node changes => record (e.updateNode node changes)
  | moveNode node position => record (e.moveNode node position)
  | addConnection j =>
    (e.addConnection j.source j.target (.ofSlot j.link) j.id.get?).map fun (e, c) =>
      (e, addConnection { j with id := .value c.id, link := .value c.link })
  | removeConnection connection => record (e.removeConnection connection)
  | setVariable v => record (e.setVariable v)
  | removeVariable id => record (e.removeVariable id)
  | addComment comment => record (e.addComment comment)
  | removeComment id => record (e.removeComment id)
  | setViewport viewport => .ok (e.setViewport viewport.get?, operation)

end Operation

/-- Applies operations one after the other; those that are recorded come in the same order. -/
def applyAll (catalog : Catalog) : Editor → List Operation → Except EditError (Editor × List Operation)
  | e, [] => .ok (e, [])
  | e, operation :: rest => do
    let (e, recorded) ← operation.applyTo catalog e
    let (e, others) ← applyAll catalog e rest
    return (e, recorded :: others)

/-- Applies operations, each of them expanded when its turn comes. -/
def applyExpanded (catalog : Catalog) :
    Editor → List Operation → Except EditError (Editor × List Operation)
  | e, [] => .ok (e, [])
  | e, operation :: rest => do
    let (e, recorded) ← applyAll catalog e (operation.expand e)
    let (e, others) ← applyExpanded catalog e rest
    return (e, recorded ++ others)

/-- What came of a batch. A batch that was not committed leaves its flowchart as it was. -/
structure Outcome where
  document : Document
  committed : Bool
  report : Report
  applied : List Operation
  version : Option Int := none

namespace Outcome

/-- The error that a batch that was not committed becomes. -/
def rejection? (o : Outcome) : Option ErrorReport :=
  if o.committed then none else some (rejection o.report "")

end Outcome

/-- Applies a batch to a flowchart. -/
def applyBatch (catalog : Catalog) (annotates : Bool) (d : Document) (operations : List Operation) :
    Except EditError Outcome := do
  let (e, applied) ← applyExpanded catalog (.ofDocument d) operations
  let report := validate catalog e.document
  if report.hasErrors then return { document := d, committed := false, report, applied }
  let document := if annotates then annotate report e.document else e.document
  return { document, committed := true, report, applied }

end Flowchart
