import Flowchart.Catalog.Basic
import Flowchart.Document.Check
import Flowchart.Edit.EditError
import Flowchart.Edit.Operation
import Flowchart.Json.MergePatch

/-!
# Primitive edits

`Editor` is a working copy of a flowchart with an index of its nodes and one of its connections. Each
primitive checks what it needs and either makes its whole change or none. None of them looks at the
flowchart as a whole.
-/

namespace Flowchart

/-- The positions of ids in a list. Of an id that occurs twice the last position counts. -/
abbrev Positions := List (String × Nat)

def Positions.of (ids : List String) : Positions := ids.zipIdx.reverse

structure Editor where
  document : Document
  nodeIndex : Positions
  connectionIndex : Positions

/-- The class that a connection is asked to have. -/
inductive LinkChoice where
  /-- The class of the source pin. -/
  | implied
  | chosen (link : Link)
  /-- A word that is no class. It is held to the rules of data until the connection is made. -/
  | other (word : String)

namespace LinkChoice

def ofSlot (slot : Slot Link) : LinkChoice := slot.get?.elim implied chosen

/-- The choice that a word stands for. -/
def ofWord (word : String) : LinkChoice :=
  if word.isEmpty then implied else (Link.names.lookup word).elim (other word) chosen

/-- The class whose rules are applied, and the word it is known by. -/
def resolve (producer : Kind) : LinkChoice → Link × String
  | implied => (.ofProducer producer, (Link.ofProducer producer).name)
  | chosen link => (link, link.name)
  | other word => (.data, word)

end LinkChoice

namespace Editor

/-- An editor of a flowchart, with fresh indices. -/
def ofDocument (d : Document) : Editor :=
  { document := d
    nodeIndex := .of (d.nodes.items.map Node.id)
    connectionIndex := .of (d.connections.items.map Connection.id) }

/-- The node with an id and its position. -/
def locate (e : Editor) (id : String) : Except EditError (Nat × Node) :=
  match e.nodeIndex.lookup id with
  | none => .error (.missingNode id)
  | some position =>
    match e.document.nodes.items[position]? with
    | some node => if node.id = id then .ok (position, node) else .error (.lostNode id position)
    | none => .error (.lostNode id position)

/-- The position of the connection with an id. -/
def locateConnection (e : Editor) (id : String) : Except EditError Nat :=
  match e.connectionIndex.lookup id with
  | none => .error (.missingConnection id)
  | some position =>
    match e.document.connections.items[position]? with
    | some c => if c.id = id then .ok position else .error (.lostConnection id position)
    | none => .error (.lostConnection id position)

/-- The pin at an end, which must be on a side. -/
def pin (e : Editor) (at_ : End) (side : Side) : Except EditError Pin := do
  let (_, node) ← e.locate at_.node
  match node.pin? side at_.pin with
  | some pin => return pin
  | none =>
    if (node.pin? side.other at_.pin).isSome then throw (.misplacedPin at_ side)
    else throw (.missingPin at_ side)

def hasNode (e : Editor) (id : String) : Bool := (e.nodeIndex.lookup id).isSome

def hasConnection (e : Editor) (id : String) : Bool := (e.connectionIndex.lookup id).isSome

/-! ### Nodes -/

def addNode (e : Editor) (node : Node) : Except EditError Editor :=
  if e.hasNode node.id then .error (.nodeTaken node.id)
  else
    let nodes := e.document.nodes
    .ok { e with
      document := { e.document with nodes := nodes.edit (· ++ [node]) }
      nodeIndex := (node.id, nodes.items.length) :: e.nodeIndex }

/-- Checks the id of a new node and that of its type, as both must not be empty. -/
def checkNames (id : String) (t : NodeType) : Checked Unit :=
  (fun _ _ => ()) <$> (Check.name (.string id)).under (.key "id") <*>
    (Check.name (.string t.id)).under (.key "type")

/-- Adds a node of a type of the catalog. -/
def addNodeOfType (catalog : Catalog) (e : Editor) (type id : String) (position : Point)
    (label : Option String) (data : Json.Fields) : Except EditError Editor :=
  match catalog.find? type with
  | none => .error (.unknownType type catalog.ids)
  | some t =>
    match checkNames id t with
    | .bad issues => .error (.malformed issues)
    | .ok _ => e.addNode (t.create id position label data)

/-- Takes a node away; its connections stay. -/
def removeNode (e : Editor) (id : String) : Except EditError Editor := do
  let _ ← e.locate id
  let rest := e.document.nodes.items.filter fun node => node.id != id
  return ofDocument { e.document with nodes := .of rest }

/-- Changes the node with an id. -/
def changeNode (e : Editor) (id : String) (change : Node → Node) : Except EditError Editor := do
  let (position, node) ← e.locate id
  return { e with
    document := { e.document with
      nodes := e.document.nodes.edit fun nodes => nodes.set position (change node) } }

/-- Merges a patch into the properties of a node. -/
def updateNodeData (e : Editor) (id : String) (patch : Json.Fields) : Except EditError Editor :=
  e.changeNode id fun node => { node with data := some (Json.patchFields node.properties patch) }

/-- Changes the looks of a node. -/
def updateNode (e : Editor) (id : String) (changes : LookChanges) : Except EditError Editor :=
  e.changeNode id fun node =>
    { node with
      label := if changes.label.isGiven then .ofSlot changes.label else node.label
      collapsed := if changes.collapsed.isGiven then .ofSlot changes.collapsed else node.collapsed
      width := if changes.width.isGiven then .ofSlot changes.width else node.width
      height := if changes.height.isGiven then .ofSlot changes.height else node.height }

def moveNode (e : Editor) (id : String) (position : Point) : Except EditError Editor :=
  e.changeNode id fun node => { node with position := some position }

/-! ### Connections -/

/-- The first of the ids `base`, `base-2`, `base-3`, … that is free. One of the first `fuel` is, if no
more than that many are taken. -/
def freeId (taken : String → Bool) (base : String) : Nat → Nat → String
  | 0, suffix => s!"{base}-{suffix}"
  | fuel + 1, suffix =>
    let candidate := if suffix = 1 then base else s!"{base}-{suffix}"
    if taken candidate then freeId taken base fuel (suffix + 1) else candidate

/-- An id for a connection that was given none. -/
def freshConnectionId (e : Editor) (source target : End) : String :=
  freeId e.hasConnection s!"conn-{source.node}-{source.pin}-{target.node}-{target.pin}"
    (e.connectionIndex.length + 1) 1

/-- The connection that already brings data to an input. -/
def holder? (e : Editor) (target : End) : Option Connection :=
  e.document.connections.items.find? fun c => c.link == .data && c.target == target

/-- A connection of checked parts: its id is not empty, and its class is one of the two. -/
def makeConnection (id : String) (source target : End) (word : String) : Checked Connection :=
  (fun id link => ⟨id, source, target, link⟩) <$> (Check.name (.string id)).under (.key "id") <*>
    (Link.check (.string word)).under (.key "type")

/-- Whether a class may join two kinds at an input, which may receive data from one connection only. -/
def checkJoin (e : Editor) (source target : End) (producer consumer : Kind) (link : Link)
    (word : String) : Except EditError Unit :=
  match link.objection? producer consumer with
  | some objection => .error (.mismatch source target producer consumer word objection)
  | none =>
    match e.holder? target with
    | some holder => if word = Link.data.name then .error (.fanIn target holder.id) else .ok ()
    | none => .ok ()

/-- The id of a new connection: the one that is given, which must be free, or a fresh one. -/
def chooseId (e : Editor) (source target : End) : Option String → Except EditError String
  | none => .ok (e.freshConnectionId source target)
  | some id => if e.hasConnection id then .error (.connectionTaken id) else .ok id

/-- Adds a connection whose id is free. -/
def pushConnection (e : Editor) (c : Connection) : Editor :=
  let connections := e.document.connections
  { e with
    document := { e.document with connections := connections.edit (· ++ [c]) }
    connectionIndex := (c.id, connections.items.length) :: e.connectionIndex }

/-- Connects an output pin to an input pin. -/
def addConnection (e : Editor) (source target : End) (choice : LinkChoice) (id : Option String) :
    Except EditError (Editor × Connection) := do
  let producer := (← e.pin source .output).kind
  let consumer := (← e.pin target .input).kind
  let (link, word) := choice.resolve producer
  e.checkJoin source target producer consumer link word
  let id ← e.chooseId source target id
  match makeConnection id source target word with
  | .bad issues => throw (.malformed issues)
  | .ok c => return (e.pushConnection c, c)

def removeConnection (e : Editor) (id : String) : Except EditError Editor := do
  let position ← e.locateConnection id
  return ofDocument { e.document with
    connections := e.document.connections.edit fun connections => connections.eraseIdx position }

/-! ### Variables, comments and the viewport -/

/-- Replaces the first variable with an id, or adds a new one. -/
def putVariable (v : Variable) : List Variable → List Variable
  | [] => [v]
  | old :: rest => if old.id = v.id then v :: rest else old :: putVariable v rest

/-- Sets a variable. No other variable may have its name. -/
def setVariable (e : Editor) (v : Variable) : Except EditError Editor :=
  match e.document.vars.items.find? fun old => old.name == v.name && old.id != v.id with
  | some holder => .error (.nameTaken v.id v.name holder.id)
  | none =>
    .ok { e with
      document := { e.document with vars := e.document.vars.edit (putVariable v) } }

def removeVariable (e : Editor) (id : String) : Except EditError Editor :=
  let rest := e.document.vars.items.filter fun v => v.id != id
  if rest.length = e.document.vars.items.length then .error (.missingVariable id)
  else .ok { e with document := { e.document with vars := .of rest } }

def addComment (e : Editor) (comment : Comment) : Except EditError Editor :=
  if e.document.comments.items.any fun c => c.id == comment.id then
    .error (.commentTaken comment.id)
  else
    .ok { e with
      document := { e.document with comments := e.document.comments.edit (· ++ [comment]) } }

def removeComment (e : Editor) (id : String) : Except EditError Editor :=
  let rest := e.document.comments.items.filter fun c => c.id != id
  if rest.length = e.document.comments.items.length then .error (.missingComment id)
  else .ok { e with document := { e.document with comments := .of rest } }

/-- Sets the viewport, or clears it. -/
def setViewport (e : Editor) (viewport : Option Viewport) : Editor :=
  { e with document := { e.document with viewport := .ofOption viewport } }

end Editor

end Flowchart
