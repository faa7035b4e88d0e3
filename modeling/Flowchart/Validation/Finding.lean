import Flowchart.Document.Basic

/-!
# Findings

* `Finding`: something wrong with a flowchart, or suspicious about it.
* `Finding.isError`: a flowchart with an error must not be accepted.
* `Report`: the findings of a validation, in order.
-/

namespace Flowchart

inductive Severity where
  | error
  | warning
  deriving DecidableEq, Repr

def Severity.name : Severity → String
  | error => "error"
  | warning => "warning"

/-- Something wrong with a flowchart, or suspicious about it. A `side` is the side of the node that an
end of a connection needs its pin on. -/
inductive Finding where
  | duplicateNode (node : String)
  | duplicatePin (node pin : String)
  | duplicatePinName (node pin : String) (side : Side) (name : String)
  | duplicateConnection (connection : String)
  | missingEndNode (connection : String) (side : Side) (node : String)
  | misplacedEndPin (connection : String) (side : Side) (at_ : End)
  | missingEndPin (connection : String) (side : Side) (at_ : End)
  | mismatch (connection : String) (target : End) (objection : Objection)
  | fanIn (connection : String) (target : End) (holder : String)
  | duplicateVariable (id : String)
  | duplicateVariableName (id name : String)
  | duplicateComment (comment : String)
  | commentUnknownNode (comment node : String)
  | unconnectedInput (node pin name : String)
  | badData (node type problem : String)
  | cycle (first : String) (others : List String)
  | noEntry
  | unreachable (node : String)
  deriving DecidableEq, Repr

namespace Finding

def severity : Finding → Severity
  | commentUnknownNode _ _ | unconnectedInput _ _ _ | badData _ _ _ | cycle _ _ | noEntry
  | unreachable _ => .warning
  | _ => .error

def isError (f : Finding) : Bool := f.severity == .error

def code : Finding → String
  | duplicateNode _ => "duplicate_node_id"
  | duplicatePin _ _ => "duplicate_pin_id"
  | duplicatePinName _ _ _ _ => "duplicate_pin_name"
  | duplicateConnection _ => "duplicate_connection_id"
  | missingEndNode _ _ _ | misplacedEndPin _ _ _ | missingEndPin _ _ _ => "dangling_reference"
  | mismatch _ _ _ => "type_mismatch"
  | fanIn _ _ _ => "fan_in_violation"
  | duplicateVariable _ => "duplicate_variable_id"
  | duplicateVariableName _ _ => "duplicate_variable_name"
  | duplicateComment _ => "duplicate_comment_id"
  | commentUnknownNode _ _ => "comment_unknown_node"
  | unconnectedInput _ _ _ => "unconnected_required_input"
  | badData _ _ _ => "data_schema"
  | cycle _ _ => "execution_cycle"
  | noEntry => "no_entry_node"
  | unreachable _ => "unreachable_node"

/-- The end of a connection that needs its pin on a side. -/
def endName : Side → String
  | .output => "source"
  | .input => "target"

def message : Finding → String
  | duplicateNode node => s!"Duplicate node id '{node}'"
  | duplicatePin node pin => s!"Node '{node}' has more than one pin with id '{pin}'"
  | duplicatePinName node _ side name =>
    s!"Node '{node}' has more than one {side.name} pin named '{name}'"
  | duplicateConnection connection => s!"Duplicate connection id '{connection}'"
  | missingEndNode connection side node =>
    s!"Connection '{connection}' {endName side} node '{node}' does not exist"
  | misplacedEndPin connection side e =>
    s!"Connection '{connection}' {endName side} pin '{e.text}' is not an {side.name} pin"
  | missingEndPin connection side e =>
    s!"Connection '{connection}' {endName side} pin '{e.text}' does not exist"
  | mismatch connection _ objection => s!"Connection '{connection}': {objection.message}"
  | fanIn _ target holder =>
    s!"Input '{target.text}' already receives data from connection '{holder}'"
  | duplicateVariable id => s!"Duplicate variable id '{id}'"
  | duplicateVariableName _ name => s!"Duplicate variable name '{name}'"
  | duplicateComment comment => s!"Duplicate comment id '{comment}'"
  | commentUnknownNode comment node => s!"Comment '{comment}' refers to missing node '{node}'"
  | unconnectedInput node _ name =>
    s!"Required input '{name}' on node '{node}' has no connection and no default value"
  | badData node type problem => s!"Node '{node}' ({type}) {problem}"
  | cycle first others =>
    "Execution cycle: " ++ " -> ".intercalate (first :: others ++ [first])
  | noEntry =>
    "No entry node: every execution node waits on an incoming execution connection"
  | unreachable node => s!"Node '{node}' is not reachable from any entry node"

def nodeId? : Finding → Option String
  | duplicateNode node | duplicatePin node _ | duplicatePinName node _ _ _
  | unconnectedInput node _ _ | badData node _ _ | cycle node _ | unreachable node => some node
  | misplacedEndPin _ _ e | missingEndPin _ _ e | mismatch _ e _ | fanIn _ e _ => some e.node
  | _ => none

def connectionId? : Finding → Option String
  | duplicateConnection c | missingEndNode c _ _ | misplacedEndPin c _ _ | missingEndPin c _ _
  | mismatch c _ _ | fanIn c _ _ => some c
  | _ => none

def pinId? : Finding → Option String
  | duplicatePin _ pin | duplicatePinName _ pin _ _ | unconnectedInput _ pin _ => some pin
  | misplacedEndPin _ _ e | missingEndPin _ _ e | mismatch _ e _ | fanIn _ e _ => some e.pin
  | _ => none

def variableId? : Finding → Option String
  | duplicateVariable v | duplicateVariableName v _ => some v
  | _ => none

def commentId? : Finding → Option String
  | duplicateComment c | commentUnknownNode c _ => some c
  | _ => none

/-- The nodes of a cycle, in its order. -/
def related : Finding → List String
  | cycle first others => first :: others
  | _ => []

/-- Whether the finding is about a node. -/
def names (f : Finding) (node : String) : Bool :=
  f.nodeId? == some node || f.related.contains node

/-- Whether the finding refers to a part of the flowchart by its id. -/
def references (f : Finding) (id : String) : Bool :=
  f.names id || f.connectionId? == some id || f.variableId? == some id || f.commentId? == some id

def toJson (f : Finding) : Json :=
  .object <|
    [("severity", .string f.severity.name), ("code", .string f.code),
      ("message", .string f.message)] ++
      writeId "nodeId" f.nodeId? ++ writeId "connectionId" f.connectionId? ++
      writeId "pinId" f.pinId? ++ writeId "variableId" f.variableId? ++
      writeId "commentId" f.commentId? ++
      if f.related.isEmpty then [] else [("related", Json.strings f.related)]
where
  writeId (name : String) : Option String → Json.Fields
    | none => []
    | some id => [(name, .string id)]

end Finding

/-- The findings of a validation, in order. -/
structure Report where
  findings : List Finding := []
  deriving DecidableEq, Repr

namespace Report

def errors (r : Report) : List Finding := r.findings.filter Finding.isError

def warnings (r : Report) : List Finding := r.findings.filter fun f => !f.isError

def hasErrors (r : Report) : Bool := r.findings.any Finding.isError

def isClean (r : Report) : Bool := r.findings.isEmpty

/-- The findings about a node. -/
def forNode (r : Report) (node : String) : List Finding := r.findings.filter fun f => f.names node

def referencing (r : Report) (id : String) : List Finding :=
  r.findings.filter fun f => f.references id

def toJson (r : Report) : Json := .array (r.findings.map Finding.toJson)

end Report

end Flowchart
