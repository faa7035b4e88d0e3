import Flowchart.Catalog.DataSchema
import Flowchart.Document.Wire

/-!
# The catalog of node types

* `NodeType`: the pins a new node starts with and the schema of its properties.
* `Catalog`: the node types that are known. A flowchart may hold nodes of other types, whose
  properties go unchecked.
-/

namespace Flowchart

structure NodeType where
  id : String
  name : String
  category : String
  description : String
  icon : String := ""
  color : String := "#6366F1"
  configurable : Bool := true
  inputPins : List Pin := []
  outputPins : List Pin := []
  schema : DataSchema := []
  schemaVersion : Int := 1
  defaultData : Json.Fields := []

namespace NodeType

def pins (t : NodeType) : Side → List Pin
  | .input => t.inputPins
  | .output => t.outputPins

/-- The entry as it is shown to callers. -/
def summary (t : NodeType) : Json :=
  .object [("id", .string t.id), ("name", .string t.name), ("category", .string t.category),
    ("description", .string t.description), ("icon", .string t.icon), ("color", .string t.color),
    ("configurable", .bool t.configurable), ("schemaVersion", .int t.schemaVersion),
    ("inputPins", .array (t.inputPins.map Pin.toJson)),
    ("outputPins", .array (t.outputPins.map Pin.toJson))]

/-- A node of the type. Properties that are given replace or follow the usual ones. -/
def create (t : NodeType) (id : String) (position : Point) (label : Option String)
    (data : Json.Fields) : Node :=
  { id, type := t.id
    position := some position
    label := .value (label.getD t.name)
    data := some (t.defaultData.merge data)
    inputPins := some t.inputPins
    outputPins := some t.outputPins }

/-- The pins of a side with their kinds. -/
def pinList (t : NodeType) (side : Side) : List String :=
  (t.pins side).map fun pin => s!"{pin.id}:{pin.kind.name}"

end NodeType

/-- The known node types. -/
structure Catalog where
  types : List NodeType

namespace Catalog

def find? (c : Catalog) (id : String) : Option NodeType := c.types.find? fun t => t.id == id

/-- Adds a type, or puts it in the place of the one with its id. -/
def put (c : Catalog) (t : NodeType) : Catalog :=
  if (c.find? t.id).isSome then ⟨c.types.map fun old => if old.id == t.id then t else old⟩
  else ⟨c.types ++ [t]⟩

/-- Adds a type whose id is free, or any type if it may replace one. -/
def register? (c : Catalog) (t : NodeType) (replaces : Bool) : Option Catalog :=
  if (c.find? t.id).isSome && !replaces then none else some (c.put t)

def erase (c : Catalog) (id : String) : Catalog := ⟨c.types.filter fun t => t.id != id⟩

/-- The types in the order of their ids. -/
def sorted (c : Catalog) : List NodeType := c.types.mergeSort fun a b => !(b.id < a.id)

def ids (c : Catalog) : List String := c.sorted.map NodeType.id

/-- What is wrong with the properties of a node; nothing if its type is unknown. -/
def problems (c : Catalog) (node : Node) : List String :=
  match c.find? node.type with
  | none => []
  | some t => t.schema.problems node.properties

/-- One line for each type, with its pins. -/
def describe (c : Catalog) : String :=
  let pinText (pins : List String) := if pins.isEmpty then "none" else ", ".intercalate pins
  let lines := c.sorted.map fun t =>
    s!"- {t.id}: {t.description} (inputs: {pinText (t.pinList .input)}; " ++
      s!"outputs: {pinText (t.pinList .output)})"
  if lines.isEmpty then "- (no registered node types)" else "\n".intercalate lines

end Catalog

end Flowchart
