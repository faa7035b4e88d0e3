import Flowchart.Catalog.Basic
import Flowchart.Graph.Cycles
import Flowchart.Graph.Reachability
import Flowchart.Validation.Finding

/-!
# Validation

`validate` reports everything wrong with a flowchart in one pass over each of its parts: nodes and their
pins, connections, variables, comments, required inputs, properties, cycles and reachability. A node or
connection whose id came before is reported and then left out of account; so is a connection that was
found wrong.
-/

namespace Flowchart

/-- The items whose key does not occur before them. -/
def firstBy [BEq κ] (key : α → κ) : List κ → List α → List α
  | _, [] => []
  | seen, a :: rest =>
    if seen.contains (key a) then firstBy key seen rest else a :: firstBy key (key a :: seen) rest

namespace Node

/-- The findings on the pins of one side. `ids` are the ids of the pins before them on either side,
`names` the names of those on this side. -/
def sideFindings (node : Node) (side : Side) :
    List String → List String → List Pin → List Finding
  | _, _, [] => []
  | ids, names, pin :: rest =>
    if ids.contains pin.id then
      .duplicatePin node.id pin.id :: node.sideFindings side ids names rest
    else
      let tail := node.sideFindings side (pin.id :: ids) (pin.name :: names) rest
      if names.contains pin.name then .duplicatePinName node.id pin.id side pin.name :: tail else tail

/-- The findings on the pins of a node. -/
def pinFindings (node : Node) : List Finding :=
  node.sideFindings .input [] [] (node.pins .input) ++
    node.sideFindings .output ((node.pins .input).map Pin.id) [] (node.pins .output)

/-- The pin that an id stands for on a side. An output pin whose id is that of an input pin stands for
nothing. -/
def indexedPin? (node : Node) (side : Side) (id : String) : Option Pin :=
  match side with
  | .input => node.pin? .input id
  | .output => if (node.pin? .input id).isSome then none else node.pin? .output id

end Node

/-- The findings on nodes and their pins; `seen` are the ids of the nodes before them. -/
def nodeFindings : List String → List Node → List Finding
  | _, [] => []
  | seen, node :: rest =>
    if seen.contains node.id then .duplicateNode node.id :: nodeFindings seen rest
    else node.pinFindings ++ nodeFindings (node.id :: seen) rest

/-- The nodes that count: the first of each id. -/
def Document.distinctNodes (d : Document) : List Node := firstBy Node.id [] d.nodes.items

/-! ### Connections -/

namespace Connection

/-- The end of the connection that needs its pin on a side. -/
def endOn (c : Connection) : Side → End
  | .output => c.source
  | .input => c.target

/-- The pin at one end of a connection, or what is wrong with that end. -/
def resolve (nodes : List Node) (c : Connection) (side : Side) : Except Finding Pin :=
  let e := c.endOn side
  match nodes.find? fun n => n.id == e.node with
  | none => .error (.missingEndNode c.id side e.node)
  | some node =>
    match node.indexedPin? side e.pin with
    | some pin => .ok pin
    | none =>
      if (node.indexedPin? side.other e.pin).isSome then .error (.misplacedEndPin c.id side e)
      else .error (.missingEndPin c.id side e)

/-- What is wrong with a connection. `held` are the inputs that already receive data, with the
connections they receive it from. -/
def faults (nodes : List Node) (held : List (End × String)) (c : Connection) : List Finding :=
  match c.resolve nodes .output, c.resolve nodes .input with
  | .ok source, .ok target =>
    match c.link.objection? source.kind target.kind with
    | some objection => [.mismatch c.id c.target objection]
    | none =>
      match c.link, held.lookup c.target with
      | .data, some holder => [.fanIn c.id c.target holder]
      | _, _ => []
  | .error f, .error g => [f, g]
  | .error f, .ok _ => [f]
  | .ok _, .error g => [g]

end Connection

/-- The findings on connections, and the connections without any. -/
def checkConnections (nodes : List Node) :
    List String → List (End × String) → List Connection → List Finding × List Connection
  | _, _, [] => ([], [])
  | seen, held, c :: rest =>
    if seen.contains c.id then
      let (findings, accepted) := checkConnections nodes seen held rest
      (.duplicateConnection c.id :: findings, accepted)
    else
      match c.faults nodes held with
      | [] =>
        let held := if c.link = .data then (c.target, c.id) :: held else held
        let (findings, accepted) := checkConnections nodes (c.id :: seen) held rest
        (findings, c :: accepted)
      | faults =>
        let (findings, accepted) := checkConnections nodes (c.id :: seen) held rest
        (faults ++ findings, accepted)

/-! ### Variables, comments, inputs and properties -/

def variableFindings : List String → List String → List Variable → List Finding
  | _, _, [] => []
  | ids, names, v :: rest =>
    (if ids.contains v.id then [.duplicateVariable v.id] else []) ++
      (if names.contains v.name then [.duplicateVariableName v.id v.name] else []) ++
      variableFindings (v.id :: ids) (v.name :: names) rest

def commentFindings (nodes : List Node) : List String → List Comment → List Finding
  | _, [] => []
  | ids, c :: rest =>
    (if ids.contains c.id then [.duplicateComment c.id] else []) ++
      ((c.nodeIds.get?.getD []).filter fun id => !nodes.any fun n => n.id == id).map
        (.commentUnknownNode c.id) ++
      commentFindings nodes (c.id :: ids) rest

/-- The required inputs without a default that no accepted connection leads to. -/
def inputFindings (accepted : List Connection) (node : Node) : List Finding :=
  ((node.pins .input).filter fun pin =>
      pin.isRequired && !pin.hasDefault && !accepted.any fun c => c.target == ⟨node.id, pin.id⟩).map
    fun pin => .unconnectedInput node.id pin.id pin.name

def dataFindings (catalog : Catalog) (node : Node) : List Finding :=
  (catalog.problems node).map (.badData node.id node.type)

/-! ### Control flow -/

/-- The nodes and the accepted execution connections between them. -/
def executionGraph (nodes : List Node) (accepted : List Connection) : Graph :=
  nodes.map fun node =>
    (node.id,
      ((accepted.filter fun c => c.link == .execution && c.source.node == node.id).map
        fun c => c.target.node).eraseDups)

def cycleFindings (g : Graph) : List Finding :=
  g.cycles.filterMap fun
    | [] => none
    | first :: others => some (.cycle first others)

/-- Nodes with an execution input should be reachable from one that has only execution outputs. -/
def reachabilityFindings (nodes : List Node) (g : Graph) : List Finding :=
  let waiting := nodes.filter fun n => n.hasExecution .input
  let entries := nodes.filter fun n => !n.hasExecution .input && n.hasExecution .output
  if waiting.isEmpty then []
  else if entries.isEmpty then [.noEntry]
  else
    let reached := g.reachable (entries.map Node.id)
    (waiting.filter fun n => !reached.contains n.id).map fun n => .unreachable n.id

/-! ### The whole -/

/-- Everything wrong with a flowchart. -/
def validate (catalog : Catalog) (d : Document) : Report :=
  let nodes := d.distinctNodes
  let (connectionFindings, accepted) := checkConnections nodes [] [] d.connections.items
  let g := executionGraph nodes accepted
  { findings :=
      nodeFindings [] d.nodes.items ++ connectionFindings ++
        variableFindings [] [] d.vars.items ++ commentFindings nodes [] d.comments.items ++
        nodes.flatMap (inputFindings accepted) ++ nodes.flatMap (dataFindings catalog) ++
        cycleFindings g ++ reachabilityFindings nodes g }

end Flowchart
