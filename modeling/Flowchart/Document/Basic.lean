import Flowchart.Document.Kind
import Flowchart.Schema.Record

/-!
# Flowchart documents

* `Pin`, `Node`, `Connection`, `Variable`, `Comment`, `Viewport`: the parts of a flowchart. A field
  that was never given is kept apart from one that was given its default or null.
* `Collection`: the items of a top-level list, and whether the document was given that list.
* `Document`: a flowchart.
-/

namespace Flowchart

/-- A place on the canvas, or an extent. -/
structure Point where
  x : Float
  y : Float

/-- The side of a node that a pin is on. -/
inductive Side where
  | input
  | output
  deriving DecidableEq, Repr

namespace Side

def name : Side → String
  | input => "input"
  | output => "output"

def other : Side → Side
  | input => output
  | output => input

end Side

/-- A place for connections on one side of a node. -/
structure Pin where
  id : String
  name : String
  kind : Kind
  defaultValue : Option Json := none
  required : Option Bool := none
  description : Slot String := .absent

namespace Pin

/-- A default that was given and is not null. -/
def hasDefault (pin : Pin) : Bool :=
  match pin.defaultValue with
  | none | some .null => false
  | some _ => true

def isRequired (pin : Pin) : Bool := pin.required.getD false

end Pin

/-- A field of a node's looks. An edit may set it to any value; `unlike` holds one that is not of the
field's own kind. -/
inductive Look (α : Type u) where
  | absent
  | null
  | value (a : α)
  | unlike (v : Json)

/-- A step of a flowchart. Errors and warnings are derived from a validation and never read by one. -/
structure Node where
  id : String
  type : String
  position : Option Point := none
  label : Look String := .absent
  data : Option Json.Fields := none
  inputPins : Option (List Pin) := none
  outputPins : Option (List Pin) := none
  width : Look Float := .absent
  height : Look Float := .absent
  collapsed : Look Bool := .absent
  errors : Slot (List String) := .absent
  warnings : Slot (List String) := .absent

namespace Node

def pins (node : Node) : Side → List Pin
  | .input => node.inputPins.getD []
  | .output => node.outputPins.getD []

/-- The first pin of a side with an id. -/
def pin? (node : Node) (side : Side) (id : String) : Option Pin :=
  (node.pins side).find? fun pin => pin.id == id

/-- The node's properties. -/
def properties (node : Node) : Json.Fields := node.data.getD []

/-- Whether a side has a pin that carries control. -/
def hasExecution (node : Node) (side : Side) : Bool :=
  (node.pins side).any fun pin => pin.kind == .execution

end Node

/-- One end of a connection: a pin of a node, by their ids. -/
structure End where
  node : String
  pin : String
  deriving DecidableEq, Repr

/-- The end as it is written in messages. -/
def End.text (e : End) : String := s!"{e.node}.{e.pin}"

/-- A directed edge from an output pin to an input pin. -/
structure Connection where
  id : String
  source : End
  target : End
  link : Link
  deriving DecidableEq, Repr

/-- Whether an end of the connection is on a node. -/
def Connection.touches (c : Connection) (node : String) : Bool :=
  c.source.node == node || c.target.node == node

/-- A named value of the whole flowchart. -/
structure Variable where
  id : String
  name : String
  kind : Kind
  defaultValue : Option Json := none
  description : Slot String := .absent

/-- A box with text on the canvas. -/
structure Comment where
  id : String
  position : Point
  size : Point
  text : Option String := none
  color : Slot String := .absent
  nodeIds : Slot (List String) := .absent

/-- The visible part of the canvas. -/
structure Viewport where
  zoom : Option Float := none
  panX : Option Float := none
  panY : Option Float := none

/-- The items of a top-level list. Items may be added to and taken from a list that the document was
never given; the list is then still not `given`, and is written as an empty one. -/
structure Collection (α : Type u) where
  items : List α := []
  given : Bool := false

namespace Collection

/-- A list that the document was given. -/
def of (items : List α) : Collection α := ⟨items, true⟩

/-- Changes items in place. -/
def edit (c : Collection α) (change : List α → List α) : Collection α :=
  { c with items := change c.items }

end Collection

/-- A flowchart. -/
structure Document where
  nodes : Collection Node := {}
  connections : Collection Connection := {}
  vars : Collection Variable := {}
  comments : Collection Comment := {}
  viewport : Slot Viewport := .absent

namespace Document

/-- The flowchart with four empty lists. -/
def empty : Document :=
  { nodes := .of [], connections := .of [], vars := .of [], comments := .of [] }

/-- The first node with an id. -/
def node? (d : Document) (id : String) : Option Node := d.nodes.items.find? fun n => n.id == id

/-- The first connection with an id. -/
def connection? (d : Document) (id : String) : Option Connection :=
  d.connections.items.find? fun c => c.id == id

/-- The connections with an end on a node. -/
def incident (d : Document) (node : String) : List Connection :=
  d.connections.items.filter fun c => c.touches node

end Document

end Flowchart
