import Flowchart.Document.Check
import Flowchart.Edit.Operation
import Flowchart.Json.Literal

/-!
# Reading operations

`Operation.check` reads one operation: its `op` tag names it, and the rest of the object holds its
fields. Issues in the fields are found under the tag.
-/

namespace Flowchart

namespace FieldName

def op : FieldName := .plain "op"
def node : FieldName := .plain "node"
def nodeType : FieldName := ⟨"nodeType", "node_type"⟩
def nodeId : FieldName := ⟨"nodeId", "node_id"⟩
def patch : FieldName := .plain "patch"
def connectionId : FieldName := ⟨"connectionId", "connection_id"⟩
def variableField : FieldName := .plain "variable"
def variableId : FieldName := ⟨"variableId", "variable_id"⟩
def comment : FieldName := .plain "comment"
def commentId : FieldName := ⟨"commentId", "comment_id"⟩

end FieldName

/-- Why an addition cannot be carried out, whatever the flowchart. -/
def NodeAddition.refusal? (a : NodeAddition) : Option String :=
  match a.node.get?, a.nodeType.get? with
  | none, none | some _, some _ => some "add_node needs exactly one of 'node' or 'nodeType'"
  | none, some _ =>
    if (a.id.get?.getD "").isEmpty then some "add_node with 'nodeType' needs an 'id'" else none
  | some _, none =>
    if (a.id.get?.getD "").isEmpty && a.position.get?.isNone && (a.label.get?.getD "").isEmpty &&
        (a.data.get?.getD []).isEmpty then none
    else some "add_node with a full 'node' takes no other fields"

namespace Operation

/-- The fields of an operation besides its tag, and how they are read. -/
def checkFields (name : String) : Option (List FieldName × (Record → Checked Operation)) :=
  match name with
  | "add_node" =>
    some ([.node, .nodeType, .id, .position, .label, .data], fun r =>
      (fun node nodeType id position label data =>
          addNode ⟨node, nodeType, id, position, label, data⟩) <$>
        r.slot .node Node.check <*> r.slot .nodeType Check.text <*> r.slot .id Check.text <*>
        r.slot .position Point.check <*> r.slot .label Check.text <*>
        r.slot .data (Check.dictionary 1))
  | "remove_node" => some ([.nodeId], fun r => removeNode <$> r.required .nodeId Check.text)
  | "update_node_data" =>
    some ([.nodeId, .patch], fun r =>
      updateNodeData <$> r.required .nodeId Check.text <*> r.required .patch (Check.dictionary 1))
  | "update_node" =>
    some ([.nodeId, .label, .collapsed, .width, .height], fun r =>
      (fun node label collapsed width height => updateNode node ⟨label, collapsed, width, height⟩)
        <$> r.required .nodeId Check.text <*> r.slot .label Check.text <*>
        r.slot .collapsed Check.flag <*> r.slot .width Check.number <*>
        r.slot .height Check.number)
  | "move_node" =>
    some ([.nodeId, .position], fun r =>
      moveNode <$> r.required .nodeId Check.text <*> r.required .position Point.check)
  | "add_connection" =>
    some ([.id, .fromNodeId, .fromPinId, .toNodeId, .toPinId, .type], fun r =>
      (fun id sourceNode sourcePin targetNode targetPin link =>
          addConnection ⟨id, ⟨sourceNode, sourcePin⟩, ⟨targetNode, targetPin⟩, link⟩) <$>
        r.slot .id Check.text <*> r.required .fromNodeId Check.text <*>
        r.required .fromPinId Check.text <*> r.required .toNodeId Check.text <*>
        r.required .toPinId Check.text <*> r.slot .type Link.check)
  | "remove_connection" =>
    some ([.connectionId], fun r => removeConnection <$> r.required .connectionId Check.text)
  | "set_variable" =>
    some ([.variableField], fun r => setVariable <$> r.required .variableField Variable.check)
  | "remove_variable" =>
    some ([.variableId], fun r => removeVariable <$> r.required .variableId Check.text)
  | "add_comment" =>
    some ([.comment], fun r => addComment <$> r.required .comment Comment.check)
  | "remove_comment" =>
    some ([.commentId], fun r => removeComment <$> r.required .commentId Check.text)
  | "set_viewport" =>
    some ([.viewport], fun r => setViewport <$> r.slot .viewport Viewport.check)
  | _ => none

/-- An operation whose fields are fine may still be refused as a whole. -/
def checkWhole (v : Json) : Operation → Checked Operation
  | addNode a =>
    match a.refusal? with
    | some reason => .flaw (.refused reason) v
    | none => .ok (addNode a)
  | operation => .ok operation

/-- The reading of the operation that a tag names. -/
def checkTagged? (tag : String) (fields : Json.Fields) : Option (Checked Operation) :=
  (checkFields tag).map fun (names, build) =>
    ((Check.entity tag (.op :: names) build (.object fields)).andThen
      (checkWhole (.object fields))).under (.key tag)

def check : Json → Checked Operation
  | .object fields =>
    match Json.Fields.get? "op" fields with
    | none => .flaw (.untagged "op") (.object fields)
    | some tag =>
      let unknown : Checked Operation :=
        .flaw (.unknownTag "op" tag.plainText names) (.object fields)
      match tag with
      | .string name => (checkTagged? name fields).getD unknown
      | _ => unknown
  | v => .flaw .notTaggable v

def checkList : Json → Checked (List Operation) := Check.list check

end Operation

end Flowchart
