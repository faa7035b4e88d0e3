import Flowchart.Catalog.Basic
import Flowchart.Document.Check
import Flowchart.Error

/-!
# Flowcharts of the older format

The older format places its nodes in space and joins whole nodes. `Legacy.convert` turns its entries
into a flowchart: positions keep two of the three axes, known types bring their pins, and every edge
becomes an execution connection.
-/

namespace Flowchart

namespace Legacy

/-- A position in space. -/
structure Place where
  x : Float
  y : Float
  z : Float

structure Node where
  id : String
  type : String
  place : Place
  label : Option String
  data : Json.Fields

structure Edge where
  id : Option String
  source : String
  target : String

def Place.check : Json → Checked Place :=
  Check.tuple 3 fun items =>
    Place.mk <$> Check.item items 0 Check.number <*> Check.item items 1 Check.number <*>
      Check.item items 2 Check.number

def Node.check : Json → Checked Node :=
  Check.openEntity "LegacyNode" fun r =>
    (fun id type place label data =>
        ⟨id, type, place.getD ⟨0, 0, 0⟩, label.get?, data.getD []⟩) <$>
      r.required .id Check.text <*> r.required .type Check.text <*>
      r.optional .position Place.check <*> r.slot .label Check.text <*>
      r.optional .data (Check.dictionary 1)

def Edge.check : Json → Checked Edge :=
  Check.openEntity "LegacyConnection" fun r =>
    (fun id source target => ⟨id.get?, source, target⟩) <$> r.slot .id Check.text <*>
      r.required ⟨"from", "from_node"⟩ Check.text <*> r.required ⟨"to", "to_node"⟩ Check.text

/-- Why the entries make no flowchart. -/
inductive Error where
  /-- An entry is not of the older format. -/
  | shape (issues : List Issue)
  /-- An entry is, but makes no part of a flowchart. -/
  | part (issues : List Issue)
  /-- There are no entries to go through. -/
  | noEntries

def Error.failure : Error → Failure
  | shape issues =>
    .reported (.of .serialization
      s!"Legacy flowchart does not match the expected shape: {issues.length} error(s)"
      [("errors", .array (issues.map Issue.toJsonWithInput))])
  | part issues => .invalid issues
  | noEntries => .badType

/-- The entries of a value: items, keys or characters. -/
def entries : Json → Except Error (List Json)
  | .array items => .ok items
  | .object fields => .ok (fields.map fun field => .string field.1)
  | .string text => .ok (text.toList.map fun c => .string c.toString)
  | _ => .error .noEntries

/-- Reads entries up to the first that is not of the older format. -/
def readEntries (check : Json → Checked α) (v : Json) : Except Error (List α) := do
  (← entries v).mapM fun entry => (check entry).toExcept.mapError .shape

/-- The canvas is a hundred times as fine as space. -/
def scale : Float := 100

/-- The pin of nodes whose type has no execution pin, or is unknown. -/
def usualPin : String := "exec"

/-- The first execution pin of a side of a type. -/
def executionPinId (catalog : Catalog) (type : String) (side : Side) : String :=
  match (catalog.find? type).bind fun t => (t.pins side).find? fun pin => pin.kind == .execution with
  | some pin => pin.id
  | none => usualPin

def convertNode (catalog : Catalog) (node : Node) : Checked Flowchart.Node :=
  let spec := catalog.find? node.type
  let label := node.label.getD ((spec.map NodeType.name).getD node.type)
  (fun id type =>
      { id, type
        position := some ⟨node.place.x * scale, node.place.z * scale⟩
        label := .value label
        data := some node.data
        inputPins := some ((spec.map NodeType.inputPins).getD [])
        outputPins := some ((spec.map NodeType.outputPins).getD []) }) <$>
    (Check.name (.string node.id)).under (.key "id") <*>
    (Check.name (.string node.type)).under (.key "type")

/-- The id of an edge that has none, or an empty one, is made of its position. -/
def edgeId (edge : Edge) (position : Nat) : String :=
  match edge.id with
  | none | some "" => s!"conn-{position}"
  | some id => id

/-- The type of the last node with an id. -/
def typeOf (nodes : List Node) (id : String) : String :=
  ((nodes.reverse.find? fun node => node.id == id).map Node.type).getD ""

def convertEdge (catalog : Catalog) (nodes : List Node) (edge : Edge) (position : Nat) :
    Checked Connection :=
  let part (name : FieldName) (id : String) :=
    (Check.name (.string id)).under (.key name.alternate)
  (fun id sourceNode sourcePin targetNode targetPin =>
      ⟨id, ⟨sourceNode, sourcePin⟩, ⟨targetNode, targetPin⟩, .execution⟩) <$>
    part .id (edgeId edge position) <*> part .fromNodeId edge.source <*>
    part .fromPinId (executionPinId catalog (typeOf nodes edge.source) .output) <*>
    part .toNodeId edge.target <*>
    part .toPinId (executionPinId catalog (typeOf nodes edge.target) .input)

/-- Turns nodes and edges of the older format into a flowchart. -/
def convert (catalog : Catalog) (nodes edges : Json) : Except Error Document := do
  let nodes ← readEntries Node.check nodes
  let edges ← readEntries Edge.check edges
  let converted ← nodes.mapM fun node => (convertNode catalog node).toExcept.mapError .part
  let connections ← edges.zipIdx.mapM fun (edge, position) =>
    (convertEdge catalog nodes edge position).toExcept.mapError .part
  return {
    nodes := .of converted
    connections := .of connections
    vars := .of []
    comments := .of []
    viewport := .value { zoom := some 1, panX := some 0, panY := some 0 } }

end Legacy

end Flowchart
