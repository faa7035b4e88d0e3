import Flowchart.Document.Basic
import Flowchart.Json.Writer

/-!
# The written form of a flowchart

`toJson` writes the fields that were given, in the order of declaration, null ones included, and leaves
out the others. Only the four top-level lists are always there: those that were not given follow the
rest as empty lists.
-/

namespace Flowchart

/-- A field that was given. -/
def writeGiven (name : String) (write : α → Json) : Option α → Json.Fields
  | none => []
  | some a => [(name, write a)]

def Slot.write (name : String) (write : α → Json) : Slot α → Json.Fields
  | absent => []
  | null => [(name, .null)]
  | value a => [(name, write a)]

def Look.write (name : String) (write : α → Json) : Look α → Json.Fields
  | absent => []
  | null => [(name, .null)]
  | value a => [(name, write a)]
  | unlike v => [(name, v)]

namespace Point

def toJson (p : Point) : Json := .array [.double p.x, .double p.y]

end Point

namespace Pin

def toFields (pin : Pin) : Json.Fields :=
  [("id", .string pin.id), ("name", .string pin.name), ("type", .string pin.kind.name)] ++
    writeGiven "defaultValue" (fun v => v) pin.defaultValue ++
    writeGiven "required" .bool pin.required ++ pin.description.write "description" .string

def toJson (pin : Pin) : Json := .object pin.toFields

end Pin

namespace Node

def toFields (node : Node) : Json.Fields :=
  [("id", .string node.id), ("type", .string node.type)] ++
    writeGiven "position" Point.toJson node.position ++ node.label.write "label" .string ++
    writeGiven "data" .object node.data ++
    writeGiven "inputPins" (fun pins => .array (pins.map Pin.toJson)) node.inputPins ++
    writeGiven "outputPins" (fun pins => .array (pins.map Pin.toJson)) node.outputPins ++
    node.width.write "width" .double ++ node.height.write "height" .double ++
    node.collapsed.write "collapsed" .bool ++ node.errors.write "errors" Json.strings ++
    node.warnings.write "warnings" Json.strings

def toJson (node : Node) : Json := .object node.toFields

end Node

namespace Connection

def toFields (c : Connection) : Json.Fields :=
  [("id", .string c.id), ("fromNodeId", .string c.source.node), ("fromPinId", .string c.source.pin),
    ("toNodeId", .string c.target.node), ("toPinId", .string c.target.pin),
    ("type", .string c.link.name)]

def toJson (c : Connection) : Json := .object c.toFields

end Connection

namespace Variable

def toFields (v : Variable) : Json.Fields :=
  [("id", .string v.id), ("name", .string v.name), ("type", .string v.kind.name)] ++
    writeGiven "defaultValue" (fun v => v) v.defaultValue ++
    v.description.write "description" .string

def toJson (v : Variable) : Json := .object v.toFields

end Variable

namespace Comment

def toFields (c : Comment) : Json.Fields :=
  [("id", .string c.id), ("position", c.position.toJson), ("size", c.size.toJson)] ++
    writeGiven "text" .string c.text ++ c.color.write "color" .string ++
    c.nodeIds.write "nodeIds" Json.strings

def toJson (c : Comment) : Json := .object c.toFields

end Comment

namespace Viewport

def toFields (v : Viewport) : Json.Fields :=
  writeGiven "zoom" .double v.zoom ++ writeGiven "panX" .double v.panX ++
    writeGiven "panY" .double v.panY

def toJson (v : Viewport) : Json := .object v.toFields

end Viewport

namespace Collection

/-- The list, if it was given. -/
def write (name : String) (write : α → Json) (c : Collection α) : Json.Fields :=
  if c.given then [(name, .array (c.items.map write))] else []

/-- An empty list in place of one that was not given. -/
def writeMissing (name : String) (c : Collection α) : Json.Fields :=
  if c.given then [] else [(name, .array [])]

end Collection

namespace Document

def toFields (d : Document) : Json.Fields :=
  d.nodes.write "nodes" Node.toJson ++ d.connections.write "connections" Connection.toJson ++
    d.vars.write "variables" Variable.toJson ++ d.comments.write "comments" Comment.toJson ++
    d.viewport.write "viewport" Viewport.toJson ++ d.nodes.writeMissing "nodes" ++
    d.connections.writeMissing "connections" ++ d.vars.writeMissing "variables" ++
    d.comments.writeMissing "comments"

def toJson (d : Document) : Json := .object d.toFields

/-- The flowchart as JSON text. -/
def render (indent : Option Nat) (d : Document) : String := d.toJson.render indent

end Document

end Flowchart
