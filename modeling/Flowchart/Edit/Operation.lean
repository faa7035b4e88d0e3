import Flowchart.Document.Wire
import Flowchart.Text.Quoted

/-!
# Operations

`Operation` is the grammar in which every edit of a flowchart is expressed, by hand or by the
assistant. Fields that may be left out are slots, so an operation is written with exactly the fields
it was given.
-/

namespace Flowchart

/-- Adds a node that is given whole, or one of a type of the catalog. -/
structure NodeAddition where
  node : Slot Node := .absent
  nodeType : Slot String := .absent
  id : Slot String := .absent
  position : Slot Point := .absent
  label : Slot String := .absent
  data : Slot Json.Fields := .absent

/-- The changes of a node's looks; fields that are absent stay as they are. -/
structure LookChanges where
  label : Slot String := .absent
  collapsed : Slot Bool := .absent
  width : Slot Float := .absent
  height : Slot Float := .absent

/-- Connects an output pin to an input pin. -/
structure Joining where
  id : Slot String := .absent
  source : End
  target : End
  link : Slot Link := .absent

inductive Operation where
  | addNode (addition : NodeAddition)
  | removeNode (node : String)
  | updateNodeData (node : String) (patch : Json.Fields)
  | updateNode (node : String) (changes : LookChanges)
  | moveNode (node : String) (position : Point)
  | addConnection (joining : Joining)
  | removeConnection (connection : String)
  | setVariable (v : Variable)
  | removeVariable (id : String)
  | addComment (comment : Comment)
  | removeComment (id : String)
  | setViewport (viewport : Slot Viewport)

namespace Operation

/-- The names of the operations, in the order in which they are listed to callers. -/
def names : List String :=
  ["add_node", "remove_node", "update_node_data", "update_node", "move_node", "add_connection",
    "remove_connection", "set_variable", "remove_variable", "add_comment", "remove_comment",
    "set_viewport"]

def name : Operation → String
  | addNode _ => "add_node"
  | removeNode _ => "remove_node"
  | updateNodeData _ _ => "update_node_data"
  | updateNode _ _ => "update_node"
  | moveNode _ _ => "move_node"
  | addConnection _ => "add_connection"
  | removeConnection _ => "remove_connection"
  | setVariable _ => "set_variable"
  | removeVariable _ => "remove_variable"
  | addComment _ => "add_comment"
  | removeComment _ => "remove_comment"
  | setViewport _ => "set_viewport"

/-- The fields that were given, in the order of declaration. -/
def fields : Operation → Json.Fields
  | addNode a =>
    a.node.write "node" Node.toJson ++ a.nodeType.write "nodeType" .string ++
      a.id.write "id" .string ++ a.position.write "position" Point.toJson ++
      a.label.write "label" .string ++ a.data.write "data" .object
  | removeNode node => [("nodeId", .string node)]
  | updateNodeData node patch => [("nodeId", .string node), ("patch", .object patch)]
  | updateNode node changes =>
    [("nodeId", .string node)] ++ changes.label.write "label" .string ++
      changes.collapsed.write "collapsed" .bool ++ changes.width.write "width" .double ++
      changes.height.write "height" .double
  | moveNode node position => [("nodeId", .string node), ("position", position.toJson)]
  | addConnection j =>
    j.id.write "id" .string ++
      [("fromNodeId", .string j.source.node), ("fromPinId", .string j.source.pin),
        ("toNodeId", .string j.target.node), ("toPinId", .string j.target.pin)] ++
      j.link.write "type" fun link => .string link.name
  | removeConnection connection => [("connectionId", .string connection)]
  | setVariable v => [("variable", v.toJson)]
  | removeVariable id => [("variableId", .string id)]
  | addComment comment => [("comment", comment.toJson)]
  | removeComment id => [("commentId", .string id)]
  | setViewport viewport => viewport.write "viewport" Viewport.toJson

def toJson (operation : Operation) : Json :=
  .object (("op", .string operation.name) :: operation.fields)

def listToJson (operations : List Operation) : Json := .array (operations.map toJson)

/-- The id of the node that an addition adds; none is shown by the literal of null. -/
def additionText (a : NodeAddition) : String :=
  match a.node.get? with
  | some node => node.id
  | none => a.id.get?.getD "None"

/-- One line about an operation. -/
def describe (operation : Operation) : String :=
  match operation with
  | addNode a => s!"add_node {additionText a}"
  | removeNode node => s!"remove_node {node}"
  | updateNodeData node patch =>
    let keys := quotedList (Json.Fields.keys patch |>.mergeSort fun a b => !(b < a))
    s!"update_node_data {node} {keys}"
  | addConnection j => s!"add_connection {j.source.text} -> {j.target.text}"
  | removeConnection connection => s!"remove_connection {connection}"
  | other => other.name

end Operation

end Flowchart
