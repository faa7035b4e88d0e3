import Flowchart.Validation.Annotate

/-!
# Findings that stand on nodes

A validation does not read the findings that stand on the nodes.

* `Node.bare`: a node without findings.
* `validate_congr`: flowcharts that differ in the findings on their nodes only have the same report. Each
  pass of the validation has a lemma that says so of its own part.
* `annotateNode_bare`: noting findings on a node changes nothing else.
-/

namespace Flowchart

namespace Node

/-- A node without findings. -/
def bare (node : Node) : Node := { node with errors := .absent, warnings := .absent }

@[simp] theorem bare_id (node : Node) : node.bare.id = node.id := rfl

@[simp] theorem bare_type (node : Node) : node.bare.type = node.type := rfl

@[simp] theorem bare_pins (node : Node) (side : Side) : node.bare.pins side = node.pins side := by
  cases side <;> rfl

@[simp] theorem bare_properties (node : Node) : node.bare.properties = node.properties := rfl

@[simp] theorem bare_pin? (node : Node) (side : Side) (id : String) : node.bare.pin? side id = node.pin? side id := by
  simp [pin?]

@[simp] theorem bare_indexedPin? (node : Node) (side : Side) (id : String) :
    node.bare.indexedPin? side id = node.indexedPin? side id := by
  cases side <;> simp [indexedPin?]

@[simp] theorem bare_hasExecution (node : Node) (side : Side) :
    node.bare.hasExecution side = node.hasExecution side := by
  simp [hasExecution]

theorem bare_sideFindings (node : Node) (side : Side) (ids names : List String) (pins : List Pin) :
    node.bare.sideFindings side ids names pins = node.sideFindings side ids names pins := by
  induction pins generalizing ids names with
  | nil => rfl
  | cons pin pins ih => simp [sideFindings, ih]

@[simp] theorem bare_pinFindings (node : Node) : node.bare.pinFindings = node.pinFindings := by
  simp [pinFindings, bare_sideFindings]

end Node

theorem firstBy_map [BEq κ] {key : α → κ} {f : α → α} (keeps : ∀ a, key (f a) = key a) (seen : List κ)
    (items : List α) : firstBy key seen (items.map f) = (firstBy key seen items).map f := by
  induction items generalizing seen with
  | nil => rfl
  | cons a items ih =>
    simp only [List.map_cons, firstBy, keeps, ih]
    split <;> rfl

/-! ### The passes of a validation -/

theorem nodeFindings_bare (seen : List String) (nodes : List Node) :
    nodeFindings seen (nodes.map Node.bare) = nodeFindings seen nodes := by
  induction nodes generalizing seen with
  | nil => rfl
  | cons node nodes ih => simp [nodeFindings, ih]

theorem find?_bare (nodes : List Node) (id : String) :
    ((nodes.map Node.bare).find? fun n => n.id == id) = (nodes.find? fun n => n.id == id).map Node.bare := by
  simp only [List.find?_map, Function.comp_def, Node.bare_id]

theorem any_bare (nodes : List Node) (id : String) :
    ((nodes.map Node.bare).any fun n => n.id == id) = nodes.any fun n => n.id == id := by
  simp only [List.any_map, Function.comp_def, Node.bare_id]

theorem resolve_bare (nodes : List Node) (c : Connection) (side : Side) :
    c.resolve (nodes.map Node.bare) side = c.resolve nodes side := by
  unfold Connection.resolve
  simp only [find?_bare]
  cases nodes.find? fun n => n.id == (c.endOn side).node with
  | none => rfl
  | some node => simp

theorem checkConnections_bare (nodes : List Node) (seen : List String) (held : List (End × String))
    (connections : List Connection) :
    checkConnections (nodes.map Node.bare) seen held connections =
      checkConnections nodes seen held connections := by
  induction connections generalizing seen held with
  | nil => rfl
  | cons c connections ih => simp only [checkConnections, Connection.faults, resolve_bare, ih]

theorem commentFindings_bare (nodes : List Node) (ids : List String) (comments : List Comment) :
    commentFindings (nodes.map Node.bare) ids comments = commentFindings nodes ids comments := by
  induction comments generalizing ids with
  | nil => rfl
  | cons c comments ih => simp only [commentFindings, any_bare, ih]

theorem inputFindings_bare (accepted : List Connection) (node : Node) :
    inputFindings accepted node.bare = inputFindings accepted node := by
  simp [inputFindings]

theorem dataFindings_bare (catalog : Catalog) (node : Node) :
    dataFindings catalog node.bare = dataFindings catalog node := by
  simp [dataFindings, Catalog.problems]

theorem executionGraph_bare (nodes : List Node) (accepted : List Connection) :
    executionGraph (nodes.map Node.bare) accepted = executionGraph nodes accepted := by
  simp [executionGraph]

theorem reachabilityFindings_bare (nodes : List Node) (g : Graph) :
    reachabilityFindings (nodes.map Node.bare) g = reachabilityFindings nodes g := by
  simp only [reachabilityFindings, List.filter_map, Function.comp_def, List.isEmpty_map, List.map_map,
    Node.bare_hasExecution, Node.bare_id]

/-! ### The whole -/

/-- A flowchart whose nodes are without findings has the same report. -/
theorem validate_bare (catalog : Catalog) (d : Document) :
    validate catalog { d with nodes := d.nodes.edit (List.map Node.bare) } = validate catalog d := by
  have distinct : firstBy Node.id [] (d.nodes.items.map Node.bare) =
      (firstBy Node.id [] d.nodes.items).map Node.bare := firstBy_map Node.bare_id _ _
  simp only [validate, Document.distinctNodes, Collection.edit, distinct, nodeFindings_bare,
    checkConnections_bare, commentFindings_bare, executionGraph_bare, reachabilityFindings_bare,
    List.flatMap_map, inputFindings_bare, dataFindings_bare]

/-- The report depends on the items of a flowchart, and not on the findings that stand on its nodes. -/
theorem validate_congr (catalog : Catalog) {d other : Document}
    (nodes : d.nodes.items.map Node.bare = other.nodes.items.map Node.bare)
    (connections : d.connections.items = other.connections.items) (vars : d.vars.items = other.vars.items)
    (comments : d.comments.items = other.comments.items) : validate catalog d = validate catalog other := by
  rw [← validate_bare catalog d, ← validate_bare catalog other]
  simp only [validate, Document.distinctNodes, Collection.edit, nodes, connections, vars, comments]

theorem annotateNode_bare (r : Report) (node : Node) : (annotateNode r node).bare = node.bare := by
  unfold annotateNode
  dsimp only
  split
  next => split <;> rfl
  next => rfl

end Flowchart
