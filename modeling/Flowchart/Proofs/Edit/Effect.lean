import Flowchart.Edit.Batch
import Flowchart.Proofs.Edit.FreshId
import Flowchart.Proofs.Results
import Flowchart.Proofs.Validation.WellFormed

/-!
# What an operation does

* `Operation.Effect`: all that an operation may do to a flowchart, with what was checked before.
* `Operation.effect_of_applyTo`: an operation that an editor applies has its effect.

What operations preserve is proved from their effects, without a look at the editor.
-/

namespace Flowchart

/-- The new looks of a node. -/
def LookChanges.applyTo (changes : LookChanges) (node : Node) : Node :=
  { node with
    label := if changes.label.isGiven then .ofSlot changes.label else node.label
    collapsed := if changes.collapsed.isGiven then .ofSlot changes.collapsed else node.collapsed
    width := if changes.width.isGiven then .ofSlot changes.width else node.width
    height := if changes.height.isGiven then .ofSlot changes.height else node.height }

namespace Operation

/-- The node that an operation changes in its place, and the change. -/
def change? : Operation → Option (String × (Node → Node))
  | updateNodeData id patch =>
    some (id, fun node => { node with data := some (Json.patchFields node.properties patch) })
  | updateNode id changes => some (id, changes.applyTo)
  | moveNode id position => some (id, fun node => { node with position := some position })
  | _ => none

/-- `Effect catalog d operation after recorded`: the operation turns `d` into `after` and is recorded
as `recorded`. -/
inductive Effect (catalog : Catalog) (d : Document) :
    Operation → Document → Operation → Prop
  | addNode {a node} (given : a.node.get? = some node)
      (fresh : node.id ∉ d.nodes.items.map Node.id) :
      Effect catalog d (.addNode a) { d with nodes := d.nodes.edit (· ++ [node]) } (.addNode a)
  | addTypedNode {a t} (absent : a.node.get? = none) (known : t ∈ catalog.types)
      (named : t.id.isEmpty = false)
      (fresh : a.id.get?.getD "" ∉ d.nodes.items.map Node.id) :
      Effect catalog d (.addNode a)
        { d with nodes := d.nodes.edit (· ++ [t.create (a.id.get?.getD "")
            (a.position.get?.getD ⟨0, 0⟩) a.label.get? (a.data.get?.getD [])]) } (.addNode a)
  | removeNode {id} (present : id ∈ d.nodes.items.map Node.id) :
      Effect catalog d (.removeNode id)
        { d with nodes := .of (d.nodes.items.filter fun node => node.id != id) } (.removeNode id)
  | changeNode {operation id change position node} (changes : operation.change? = some (id, change))
      (present : d.nodes.items[position]? = some node) (same : node.id = id) :
      Effect catalog d operation
        { d with nodes := d.nodes.edit fun nodes => nodes.set position (change node) } operation
  | addConnection {j c producer consumer} (source : c.source = j.source)
      (target : c.target = j.target) (named : c.id.isEmpty = false)
      (produces : d.HasPin c.source .output producer)
      (consumes : d.HasPin c.target .input consumer)
      (joins : c.link.objection? producer.kind consumer.kind = none)
      (free : c.link = .data → c.target ∉ d.dataTargets)
      (fresh : c.id ∉ d.connections.items.map Connection.id) :
      Effect catalog d (.addConnection j)
        { d with connections := d.connections.edit (· ++ [c]) }
        (.addConnection { j with id := .value c.id, link := .value c.link })
  | removeConnection {id position c} (present : d.connections.items[position]? = some c)
      (same : c.id = id) :
      Effect catalog d (.removeConnection id)
        { d with connections := d.connections.edit fun connections => connections.eraseIdx position }
        (.removeConnection id)
  | setVariable {v} (free : ∀ old ∈ d.vars.items, old.name = v.name → old.id = v.id) :
      Effect catalog d (.setVariable v) { d with vars := d.vars.edit (Editor.putVariable v) }
        (.setVariable v)
  | removeVariable {id} (present : id ∈ d.vars.items.map Variable.id) :
      Effect catalog d (.removeVariable id)
        { d with vars := .of (d.vars.items.filter fun v => v.id != id) } (.removeVariable id)
  | addComment {comment} (fresh : comment.id ∉ d.comments.items.map Comment.id) :
      Effect catalog d (.addComment comment)
        { d with comments := d.comments.edit (· ++ [comment]) } (.addComment comment)
  | removeComment {id} (present : id ∈ d.comments.items.map Comment.id) :
      Effect catalog d (.removeComment id)
        { d with comments := .of (d.comments.items.filter fun c => c.id != id) } (.removeComment id)
  | setViewport {viewport} :
      Effect catalog d (.setViewport viewport)
        { d with viewport := .ofOption viewport.get? } (.setViewport viewport)

end Operation

namespace Editor

variable {e after : Editor}

theorem addNode_eq_ok (indexed : e.Indexed) {node : Node} (edited : e.addNode node = .ok after) :
    node.id ∉ e.document.nodes.items.map Node.id ∧ after.Indexed ∧
      after.document = { e.document with nodes := e.document.nodes.edit (· ++ [node]) } := by
  unfold addNode at edited
  split at edited
  next taken => cases edited
  next free =>
    cases edited
    rw [indexed.hasNode_iff] at free
    have nodes := indexed.nodes.push node.id
    rw [List.length_map] at nodes
    exact ⟨free, ⟨by simpa [Collection.edit] using nodes, indexed.connections⟩, rfl⟩

/-- The type of a node that is added has an id. -/
theorem typed_of_checkNames {id : String} {t : NodeType} {u : Unit} (named : checkNames id t = .ok u) :
    t.id.isEmpty = false := by
  simp only [checkNames, Checked.seq_eq_ok, Checked.map_eq_ok, Checked.under_eq_ok] at named
  obtain ⟨_, _, -, typed, -⟩ := named
  cases empty : t.id.isEmpty with
  | true => simp [Check.name, empty, Checked.flaw] at typed
  | false => rfl

theorem removeNode_eq_ok {id : String} (edited : e.removeNode id = .ok after) :
    id ∈ e.document.nodes.items.map Node.id ∧ after.Indexed ∧
      after.document = { e.document with
        nodes := .of (e.document.nodes.items.filter fun node => node.id != id) } := by
  obtain ⟨⟨position, node⟩, located, edited⟩ := bind_eq_ok_iff.mp edited
  obtain ⟨present, rfl⟩ := locate_eq_ok located
  cases edited
  exact ⟨List.mem_map_of_mem (List.mem_of_getElem? present), indexed_ofDocument _, rfl⟩

theorem changeNode_eq_ok (indexed : e.Indexed) {id : String} {change : Node → Node}
    (keepsId : ∀ node, (change node).id = node.id) (edited : e.changeNode id change = .ok after) :
    ∃ position node, e.document.nodes.items[position]? = some node ∧ node.id = id ∧
      after.Indexed ∧ after.document = { e.document with
        nodes := e.document.nodes.edit fun nodes => nodes.set position (change node) } := by
  obtain ⟨⟨position, node⟩, located, edited⟩ := bind_eq_ok_iff.mp edited
  obtain ⟨present, same⟩ := locate_eq_ok located
  cases edited
  refine ⟨position, node, present, same, ⟨?_, indexed.connections⟩, rfl⟩
  -- the index holds ids only, and the change keeps the id at its position
  have ids : (e.document.nodes.items.set position (change node)).map Node.id =
      e.document.nodes.items.map Node.id := by
    rw [List.map_set, keepsId]
    obtain ⟨bound, rfl⟩ := List.getElem?_eq_some_iff.mp present
    rw [← List.getElem_map Node.id (h := by simpa using bound), List.set_getElem_self]
  simpa [Collection.edit, ids] using indexed.nodes

theorem removeConnection_eq_ok {id : String} (edited : e.removeConnection id = .ok after) :
    ∃ position c, e.document.connections.items[position]? = some c ∧ c.id = id ∧ after.Indexed ∧
      after.document = { e.document with
        connections := e.document.connections.edit fun cs => cs.eraseIdx position } := by
  obtain ⟨position, located, edited⟩ := bind_eq_ok_iff.mp edited
  obtain ⟨c, present, same⟩ := locateConnection_eq_ok located
  cases edited
  exact ⟨position, c, present, same, indexed_ofDocument _, rfl⟩

theorem pin_eq_ok {at_ : End} {side : Side} {pin : Pin} (found : e.pin at_ side = .ok pin) :
    e.document.HasPin at_ side pin := by
  obtain ⟨⟨position, node⟩, located, found⟩ := bind_eq_ok_iff.mp found
  obtain ⟨present, same⟩ := locate_eq_ok located
  dsimp only at found
  cases look : node.pin? side at_.pin with
  | none =>
    simp only [look] at found
    split at found <;> cases found
  | some other =>
    simp only [look] at found
    cases found
    exact ⟨node, List.mem_of_getElem? present, same, List.mem_of_find?_eq_some look,
      by simpa using List.find?_some look⟩

theorem holder?_eq_none {target : End} (free : e.holder? target = none) :
    target ∉ e.document.dataTargets := by
  unfold holder? at free
  unfold Document.dataTargets
  grind

/-- A connection is made of parts that are fine, with the class whose name is given. -/
theorem makeConnection_eq_ok {id : String} {source target : End} {link : Link} {c : Connection}
    (made : makeConnection id source target link.name = .ok c) :
    c = ⟨id, source, target, link⟩ ∧ id.isEmpty = false := by
  -- the class is given by its name here, so it is read back first; only the id is left to fail
  have word : Link.check (.string link.name) = .ok link := by cases link <;> rfl
  unfold makeConnection at made
  cases empty : id.isEmpty with
  | true => simp [Check.name, empty, word, Checked.flaw, Checked.under, Checked.apply, Functor.map,
      Checked.map, Seq.seq] at made
  | false =>
    simp only [Check.name, empty, word, Checked.under, Checked.apply, Functor.map, Checked.map,
      Seq.seq, Bool.false_eq_true, if_false, Checked.ok.injEq] at made
    exact ⟨made.symm, rfl⟩

theorem checkJoin_eq_ok {source target : End} {producer consumer : Kind} {link : Link}
    (checked : e.checkJoin source target producer consumer link link.name = .ok ()) :
    link.objection? producer consumer = none ∧
      (link = .data → target ∉ e.document.dataTargets) := by
  unfold checkJoin at checked
  cases objection : link.objection? producer consumer with
  | some objection => simp [objection] at checked
  | none =>
    refine ⟨rfl, ?_⟩
    rintro rfl
    cases held : e.holder? target with
    | none => exact holder?_eq_none held
    | some holder => simp [objection, held] at checked

theorem chooseId_eq_ok (indexed : e.Indexed) {source target : End} {given : Option String}
    {id : String} (chosen : e.chooseId source target given = .ok id) :
    id ∉ e.document.connections.items.map Connection.id := by
  cases given with
  | none =>
    cases chosen
    exact freshConnectionId_not_mem indexed source target
  | some id =>
    simp only [chooseId] at chosen
    split at chosen
    next taken => cases chosen
    next free =>
      cases chosen
      rwa [indexed.hasConnection_iff] at free

theorem Indexed.pushConnection (indexed : e.Indexed) (c : Connection) :
    (e.pushConnection c).Indexed := by
  have connections := indexed.connections.push c.id
  rw [List.length_map] at connections
  exact ⟨indexed.nodes, by simpa [Editor.pushConnection, Collection.edit] using connections⟩

theorem addConnection_eq_ok (indexed : e.Indexed) {source target : End} {slot : Slot Link}
    {given : Option String} {c : Connection}
    (edited : e.addConnection source target (.ofSlot slot) given = .ok (after, c)) :
    ∃ producer consumer, c.source = source ∧ c.target = target ∧ c.id.isEmpty = false ∧
      e.document.HasPin source .output producer ∧ e.document.HasPin target .input consumer ∧
      c.link.objection? producer.kind consumer.kind = none ∧
      (c.link = .data → target ∉ e.document.dataTargets) ∧
      c.id ∉ e.document.connections.items.map Connection.id ∧ after = e.pushConnection c := by
  obtain ⟨producer, produces, edited⟩ := bind_eq_ok_iff.mp edited
  obtain ⟨consumer, consumes, edited⟩ := bind_eq_ok_iff.mp edited
  -- given or inferred, the class and the name that goes with it agree
  obtain ⟨link, resolved⟩ : ∃ link, (LinkChoice.ofSlot slot).resolve producer.kind =
      (link, link.name) := by
    cases slot <;> exact ⟨_, rfl⟩
  simp only [resolved] at edited
  obtain ⟨_, checked, edited⟩ := bind_eq_ok_iff.mp edited
  obtain ⟨id, chosen, edited⟩ := bind_eq_ok_iff.mp edited
  obtain ⟨joins, free⟩ := checkJoin_eq_ok checked
  cases made : makeConnection id source target link.name with
  | bad issues => simp only [made] at edited; cases edited
  | ok made' =>
    simp only [made] at edited
    cases edited
    obtain ⟨rfl, named⟩ := makeConnection_eq_ok made
    exact ⟨producer, consumer, rfl, rfl, named, pin_eq_ok produces, pin_eq_ok consumes, joins, free,
      chooseId_eq_ok indexed chosen, rfl⟩

theorem removeVariable_eq_ok {id : String} (edited : e.removeVariable id = .ok after) :
    id ∈ e.document.vars.items.map Variable.id ∧ after = { e with document := { e.document with
      vars := .of (e.document.vars.items.filter fun v => v.id != id) } } := by
  unfold removeVariable at edited
  dsimp only at edited
  split at edited
  next kept => cases edited
  next dropped =>
    cases edited
    refine ⟨?_, rfl⟩
    rw [List.length_filter_eq_length_iff] at dropped
    simpa using dropped

theorem removeComment_eq_ok {id : String} (edited : e.removeComment id = .ok after) :
    id ∈ e.document.comments.items.map Comment.id ∧ after = { e with document := { e.document with
      comments := .of (e.document.comments.items.filter fun c => c.id != id) } } := by
  unfold removeComment at edited
  dsimp only at edited
  split at edited
  next kept => cases edited
  next dropped =>
    cases edited
    refine ⟨?_, rfl⟩
    rw [List.length_filter_eq_length_iff] at dropped
    simpa using dropped

theorem setVariable_eq_ok {v : Variable} (edited : e.setVariable v = .ok after) :
    (∀ old ∈ e.document.vars.items, old.name = v.name → old.id = v.id) ∧
      after = { e with document := { e.document with
        vars := e.document.vars.edit (putVariable v) } } := by
  unfold setVariable at edited
  split at edited
  next holder found => cases edited
  next free =>
    cases edited
    exact ⟨by simpa using List.find?_eq_none.mp free, rfl⟩

theorem addComment_eq_ok {comment : Comment} (edited : e.addComment comment = .ok after) :
    comment.id ∉ e.document.comments.items.map Comment.id ∧
      after = { e with document := { e.document with
        comments := e.document.comments.edit (· ++ [comment]) } } := by
  unfold addComment at edited
  split at edited
  next taken => cases edited
  next free =>
    cases edited
    exact ⟨by simpa using free, rfl⟩

/-- The indices do not depend on variables, comments and the viewport. -/
theorem Indexed.of_eq (indexed : e.Indexed) {d : Document} (nodes : d.nodes = e.document.nodes)
    (connections : d.connections = e.document.connections) :
    Indexed { e with document := d } :=
  ⟨nodes ▸ indexed.nodes, connections ▸ indexed.connections⟩

end Editor

namespace Operation

variable {catalog : Catalog} {e after : Editor}

theorem change?_keepsId {operation : Operation} {id : String} {change : Node → Node}
    (changes : operation.change? = some (id, change)) (node : Node) :
    (change node).id = node.id := by
  cases operation <;> simp only [change?, reduceCtorEq, Option.some.injEq, Prod.mk.injEq] at changes
  all_goals obtain ⟨rfl, rfl⟩ := changes; rfl

theorem effect_of_changeNode (indexed : e.Indexed) {operation : Operation} {id : String}
    {change : Node → Node} (changes : operation.change? = some (id, change))
    (edited : e.changeNode id change = .ok after) :
    Effect catalog e.document operation after.document operation ∧ after.Indexed := by
  obtain ⟨position, node, present, same, indexed, document⟩ :=
    Editor.changeNode_eq_ok indexed (change?_keepsId changes) edited
  exact ⟨document ▸ .changeNode changes present same, indexed⟩

theorem effect_of_addNode (indexed : e.Indexed) {a : NodeAddition}
    (applied : (addNode a).applyTo catalog e = .ok (after, recorded)) :
    Effect catalog e.document (addNode a) after.document recorded ∧ after.Indexed := by
  unfold applyTo at applied
  dsimp only at applied
  cases given : a.node.get? with
  | some node =>
    simp only [given] at applied
    obtain ⟨edited, added, same⟩ := map_eq_ok_iff.mp applied
    cases same
    obtain ⟨fresh, indexed, document⟩ := Editor.addNode_eq_ok indexed added
    exact ⟨document ▸ .addNode given fresh, indexed⟩
  | none =>
    simp only [given] at applied
    obtain ⟨edited, added, same⟩ := map_eq_ok_iff.mp applied
    cases same
    unfold Editor.addNodeOfType at added
    cases known : catalog.find? (a.nodeType.get?.getD "") with
    | none => simp [known] at added
    | some t =>
      simp only [known] at added
      split at added
      next => cases added
      next named =>
        obtain ⟨fresh, indexed, document⟩ := Editor.addNode_eq_ok indexed added
        have typed := Editor.typed_of_checkNames named
        exact ⟨document ▸ .addTypedNode given (List.mem_of_find?_eq_some known) typed fresh, indexed⟩

/-- An operation that an editor applies has its effect, and the editor stays indexed. -/
theorem effect_of_applyTo (indexed : e.Indexed) {operation recorded : Operation}
    (applied : operation.applyTo catalog e = .ok (after, recorded)) :
    Effect catalog e.document operation after.document recorded ∧ after.Indexed := by
  -- all operations but the two additions are recorded as they are
  have recordedAs {edited : Except EditError Editor}
      (done : (edited.map fun e => (e, operation)) = .ok (after, recorded)) :
      edited = .ok after ∧ recorded = operation := by
    obtain ⟨e, edited, same⟩ := map_eq_ok_iff.mp done
    cases same
    exact ⟨edited, rfl⟩
  cases operation with
  | addNode a => exact effect_of_addNode indexed applied
  | removeNode id =>
    obtain ⟨edited, rfl⟩ := recordedAs applied
    obtain ⟨present, indexed, document⟩ := Editor.removeNode_eq_ok edited
    exact ⟨document ▸ .removeNode present, indexed⟩
  | updateNodeData id patch =>
    obtain ⟨edited, rfl⟩ := recordedAs applied
    exact effect_of_changeNode indexed rfl edited
  | updateNode id changes =>
    obtain ⟨edited, rfl⟩ := recordedAs applied
    exact effect_of_changeNode indexed rfl edited
  | moveNode id position =>
    obtain ⟨edited, rfl⟩ := recordedAs applied
    exact effect_of_changeNode indexed rfl edited
  | addConnection j =>
    obtain ⟨⟨edited, c⟩, added, same⟩ := map_eq_ok_iff.mp applied
    cases same
    obtain ⟨producer, consumer, source, target, named, produces, consumes, joins, free, fresh, rfl⟩ :=
      Editor.addConnection_eq_ok indexed added
    refine ⟨.addConnection source target named ?_ ?_ joins ?_ fresh, indexed.pushConnection c⟩
    · exact source ▸ produces
    · exact target ▸ consumes
    · exact target ▸ free
  | removeConnection id =>
    obtain ⟨edited, rfl⟩ := recordedAs applied
    obtain ⟨position, c, present, same, indexed, document⟩ := Editor.removeConnection_eq_ok edited
    exact ⟨document ▸ .removeConnection present same, indexed⟩
  | setVariable v =>
    obtain ⟨edited, rfl⟩ := recordedAs applied
    obtain ⟨free, rfl⟩ := Editor.setVariable_eq_ok edited
    exact ⟨.setVariable free, indexed.of_eq rfl rfl⟩
  | removeVariable id =>
    obtain ⟨edited, rfl⟩ := recordedAs applied
    obtain ⟨present, rfl⟩ := Editor.removeVariable_eq_ok edited
    exact ⟨.removeVariable present, indexed.of_eq rfl rfl⟩
  | addComment comment =>
    obtain ⟨edited, rfl⟩ := recordedAs applied
    obtain ⟨fresh, rfl⟩ := Editor.addComment_eq_ok edited
    exact ⟨.addComment fresh, indexed.of_eq rfl rfl⟩
  | removeComment id =>
    obtain ⟨edited, rfl⟩ := recordedAs applied
    obtain ⟨present, rfl⟩ := Editor.removeComment_eq_ok edited
    exact ⟨.removeComment present, indexed.of_eq rfl rfl⟩
  | setViewport viewport =>
    cases applied
    exact ⟨.setViewport, indexed.of_eq rfl rfl⟩

end Operation

end Flowchart
