import Flowchart.Document.Basic

/-!
# Reading the parts of a flowchart

Each part has a check that reads it from a JSON value. Fields are known by either spelling, no others
are allowed, and ids and names are not empty.
-/

namespace Flowchart

namespace FieldName

def id : FieldName := .plain "id"
def name : FieldName := .plain "name"
def type : FieldName := .plain "type"
def defaultValue : FieldName := ⟨"defaultValue", "default_value"⟩
def required : FieldName := .plain "required"
def description : FieldName := .plain "description"
def position : FieldName := .plain "position"
def label : FieldName := .plain "label"
def data : FieldName := .plain "data"
def inputPins : FieldName := ⟨"inputPins", "input_pins"⟩
def outputPins : FieldName := ⟨"outputPins", "output_pins"⟩
def width : FieldName := .plain "width"
def height : FieldName := .plain "height"
def collapsed : FieldName := .plain "collapsed"
def errors : FieldName := .plain "errors"
def warnings : FieldName := .plain "warnings"
def fromNodeId : FieldName := ⟨"fromNodeId", "from_node_id"⟩
def fromPinId : FieldName := ⟨"fromPinId", "from_pin_id"⟩
def toNodeId : FieldName := ⟨"toNodeId", "to_node_id"⟩
def toPinId : FieldName := ⟨"toPinId", "to_pin_id"⟩
def size : FieldName := .plain "size"
def text : FieldName := .plain "text"
def color : FieldName := .plain "color"
def nodeIds : FieldName := ⟨"nodeIds", "node_ids"⟩
def zoom : FieldName := .plain "zoom"
def panX : FieldName := ⟨"panX", "pan_x"⟩
def panY : FieldName := ⟨"panY", "pan_y"⟩
def nodes : FieldName := .plain "nodes"
def connections : FieldName := .plain "connections"
def vars : FieldName := .plain "variables"
def comments : FieldName := .plain "comments"
def viewport : FieldName := .plain "viewport"

end FieldName

/-- A field of a node's looks, as it is read: its own kind of value, null or nothing. -/
def Look.ofSlot : Slot α → Look α
  | .absent => absent
  | .null => null
  | .value a => value a

/-- A list that is there was given. -/
def Collection.ofRead : Option (List α) → Collection α
  | none => {}
  | some items => of items

def Point.check : Json → Checked Point :=
  Check.tuple 2 fun items =>
    Point.mk <$> Check.item items 0 Check.number <*> Check.item items 1 Check.number

def Kind.check : Json → Checked Kind := Check.member Kind.names

def Link.check : Json → Checked Link := Check.literal Link.names

namespace Pin

def fieldNames : List FieldName := [.id, .name, .type, .defaultValue, .required, .description]

/-- A default value counts as nested in its pin. -/
def check : Json → Checked Pin :=
  Check.entity "NodePin" fieldNames fun r =>
    Pin.mk <$> r.required .id Check.name <*> r.required .name Check.name <*>
      r.required .type Kind.check <*> r.optional .defaultValue (Check.any 2) <*>
      r.optional .required Check.flag <*> r.slot .description Check.text

end Pin

namespace Node

def fieldNames : List FieldName :=
  [.id, .type, .position, .label, .data, .inputPins, .outputPins, .width, .height, .collapsed,
    .errors, .warnings]

def check : Json → Checked Node :=
  Check.entity "BlueprintNode" fieldNames fun r =>
    Node.mk <$> r.required .id Check.name <*> r.required .type Check.name <*>
      r.optional .position Point.check <*> (Look.ofSlot <$> r.slot .label Check.text) <*>
      r.optional .data (Check.dictionary 1) <*> r.optional .inputPins (Check.list Pin.check) <*>
      r.optional .outputPins (Check.list Pin.check) <*>
      (Look.ofSlot <$> r.slot .width Check.number) <*>
      (Look.ofSlot <$> r.slot .height Check.number) <*>
      (Look.ofSlot <$> r.slot .collapsed Check.flag) <*>
      r.slot .errors (Check.list Check.text) <*> r.slot .warnings (Check.list Check.text)

end Node

namespace Connection

def fieldNames : List FieldName :=
  [.id, .fromNodeId, .fromPinId, .toNodeId, .toPinId, .type]

def check : Json → Checked Connection :=
  Check.entity "BlueprintConnection" fieldNames fun r =>
    (fun id sourceNode sourcePin targetNode targetPin link =>
        ⟨id, ⟨sourceNode, sourcePin⟩, ⟨targetNode, targetPin⟩, link⟩) <$>
      r.required .id Check.name <*> r.required .fromNodeId Check.name <*>
      r.required .fromPinId Check.name <*> r.required .toNodeId Check.name <*>
      r.required .toPinId Check.name <*> r.required .type Link.check

end Connection

namespace Variable

def fieldNames : List FieldName := [.id, .name, .type, .defaultValue, .description]

def check : Json → Checked Variable :=
  Check.entity "FlowchartVariable" fieldNames fun r =>
    Variable.mk <$> r.required .id Check.name <*> r.required .name Check.name <*>
      r.required .type Kind.check <*> r.optional .defaultValue (Check.any 1) <*>
      r.slot .description Check.text

end Variable

namespace Comment

def fieldNames : List FieldName := [.id, .position, .size, .text, .color, .nodeIds]

def check : Json → Checked Comment :=
  Check.entity "CommentBox" fieldNames fun r =>
    Comment.mk <$> r.required .id Check.name <*> r.required .position Point.check <*>
      r.required .size Point.check <*> r.optional .text Check.text <*>
      r.slot .color Check.text <*> r.slot .nodeIds (Check.list Check.text)

end Comment

namespace Viewport

def fieldNames : List FieldName := [.zoom, .panX, .panY]

def check : Json → Checked Viewport :=
  Check.entity "ViewportState" fieldNames fun r =>
    Viewport.mk <$> r.optional .zoom Check.number <*> r.optional .panX Check.number <*>
      r.optional .panY Check.number

end Viewport

namespace Document

def fieldNames : List FieldName := [.nodes, .connections, .vars, .comments, .viewport]

def check : Json → Checked Document :=
  Check.entity "BlueprintFlowchartData" fieldNames fun r =>
    Document.mk <$> (Collection.ofRead <$> r.optional .nodes (Check.list Node.check)) <*>
      (Collection.ofRead <$> r.optional .connections (Check.list Connection.check)) <*>
      (Collection.ofRead <$> r.optional .vars (Check.list Variable.check)) <*>
      (Collection.ofRead <$> r.optional .comments (Check.list Comment.check)) <*>
      r.slot .viewport Viewport.check

end Document

end Flowchart
