import Flowchart.Edit.Loose
import Flowchart.Proofs.Edit.Effect
import Flowchart.Proofs.Storage.Calls

/-!
# Calls of an editor, write by write

* `Editor.Call`: the primitive edits, also those that take unchecked values, and the look-ups.
* `Editor.Call.answer`: what comes of a call. `Editor.Call.script`: the call as it is carried out on an editor that
  is kept, where the flowchart and the indices are written one after the other.
* `Editor.script_out`: the writes come to the answer, and a call that fails has written nothing.
-/

namespace Flowchart

namespace Editor

inductive Call where
  | addNode (node : Node)
  | addNodeOfType (type id : String) (position : Point) (label : Option String) (data : Json.Fields)
  | addDraft (type : String) (draft : NodeDraft)
  | removeNode (id : String)
  | updateNodeData (id : String) (patch : Json.Fields)
  | updateNode (id : String) (changes : LookChanges)
  | assign (id : String) (changes : Json.Fields)
  | moveNode (id : String) (position : Point)
  | moveTo (id : String) (position : Json)
  | addConnection (source target : End) (choice : LinkChoice) (id : Option String)
  | removeConnection (id : String)
  | setVariable (v : Variable)
  | removeVariable (id : String)
  | addComment (comment : Comment)
  | removeComment (id : String)
  | setViewport (viewport : Option Viewport)
  | locate (id : String)
  | locateConnection (id : String)
  | pin (at_ : End) (side : Side)

namespace Call

/-- What comes of a call: the editor after it, or why it failed. -/
def answer (catalog : Catalog) (e : Editor) : Call → Except Failure Editor
  | addNode node => (e.addNode node).mapError EditError.failure
  | addNodeOfType type id position label data =>
    (e.addNodeOfType catalog type id position label data).mapError EditError.failure
  | addDraft type draft => (e.addDraft catalog type draft).map Prod.fst
  | removeNode id => (e.removeNode id).mapError EditError.failure
  | updateNodeData id patch => (e.updateNodeData id patch).mapError EditError.failure
  | updateNode id changes => (e.updateNode id changes).mapError EditError.failure
  | assign id changes => e.assign id changes
  | moveNode id position => (e.moveNode id position).mapError EditError.failure
  | moveTo id position => e.moveTo id position
  | addConnection source target choice id =>
    ((e.addConnection source target choice id).map Prod.fst).mapError EditError.failure
  | removeConnection id => (e.removeConnection id).mapError EditError.failure
  | setVariable v => (e.setVariable v).mapError EditError.failure
  | removeVariable id => (e.removeVariable id).mapError EditError.failure
  | addComment comment => (e.addComment comment).mapError EditError.failure
  | removeComment id => (e.removeComment id).mapError EditError.failure
  | setViewport viewport => .ok (e.setViewport viewport)
  | locate id => (do let _ ← e.locate id; return e : Except EditError Editor).mapError EditError.failure
  | locateConnection id =>
    (do let _ ← e.locateConnection id; return e : Except EditError Editor).mapError EditError.failure
  | pin at_ side => (do let _ ← e.pin at_ side; return e : Except EditError Editor).mapError EditError.failure

end Call

/-! ### Calls write by write -/

/-- Finds something out, or fails. -/
def ask (question : Editor → Except EditError α) : Act Editor α := do
  Act.ofExcept ((question (← get)).mapError EditError.failure)

/-- Writes to the flowchart; the indices are left behind. -/
def write (change : Document → Document) : Act Editor Unit :=
  modify fun e => { e with document := change e.document }

def writeNodes (change : List Node → List Node) : Act Editor Unit :=
  write fun d => { d with nodes := d.nodes.edit change }

/-- Makes both indices anew. -/
def reindex : Act Editor Unit := modify fun e => ofDocument e.document

/-- Puts a node at the end of the list, then its id into the index. -/
def enterNode (node : Node) : Act Editor Unit := do
  if (← get).hasNode node.id then
    throw (EditError.nodeTaken node.id).failure
  else
    writeNodes (· ++ [node])
    modify fun e => { e with nodeIndex := (node.id, e.document.nodes.items.length - 1) :: e.nodeIndex }

/-- Puts a connection at the end of the list, then its id into the index. -/
def enterConnection (c : Connection) : Act Editor Unit := do
  write fun d => { d with connections := d.connections.edit (· ++ [c]) }
  modify fun e =>
    { e with connectionIndex := (c.id, e.document.connections.items.length - 1) :: e.connectionIndex }

/-- Finds a node and changes it in its place. -/
def touchNode (id : String) (change : Node → Node) : Act Editor Unit := do
  let (position, _) ← ask (·.locate id)
  writeNodes (·.modify position change)

/-- Sets the fields of a node's looks one after the other. -/
def setLooks (position : Nat) : Json.Fields → Act Editor Unit
  | [] => return
  | field :: rest => do
    writeNodes (·.modify position (·.setLook field))
    setLooks position rest

/-- A call as it is carried out, with one write after the other. -/
def Call.script (catalog : Catalog) : Call → Act Editor Unit
  | addNode node => enterNode node
  | addNodeOfType type id position label data => do
    let t ← Act.ofExcept ((catalog.find? type).elim (.error (EditError.unknownType type catalog.ids).failure) .ok)
    let _ ← Act.ofExcept ((checkNames id t).toExcept.mapError .invalid)
    enterNode (t.create id position label data)
  | addDraft type draft => do
    let node ← Act.ofExcept (catalog.build type draft (EditError.unknownType type catalog.ids).failure)
    enterNode node
  | removeNode id => do
    let _ ← ask (·.locate id)
    write fun d => { d with nodes := .of (d.nodes.items.filter fun node => node.id != id) }
    reindex
  | updateNodeData id patch =>
    touchNode id fun node => { node with data := some (Json.patchFields node.properties patch) }
  | updateNode id changes => touchNode id changes.applyTo
  | assign id changes => do
    let (position, _) ← ask (·.locate id)
    match changes.keys.filter fun key => !Node.lookNames.contains key with
    | [] => setLooks position changes
    | unknown =>
      let names := quotedList (unknown.mergeSort fun a b => !(b < a))
      throw (.badValue s!"Cannot update node fields: {names}")
  | moveNode id position => touchNode id fun node => { node with position := some position }
  | moveTo id position => do
    let (place, _) ← ask (·.locate id)
    let position ← Act.ofExcept (Point.ofLoose position)
    writeNodes (·.modify place fun node => { node with position := some position })
  | addConnection source target choice id => do
    let producer ← ask (·.pin source .output)
    let consumer ← ask (·.pin target .input)
    let (link, word) := choice.resolve producer.kind
    ask (·.checkJoin source target producer.kind consumer.kind link word)
    let id ← ask (·.chooseId source target id)
    let c ← Act.ofExcept ((makeConnection id source target word).toExcept.mapError .invalid)
    enterConnection c
  | removeConnection id => do
    let position ← ask (·.locateConnection id)
    write fun d => { d with connections := d.connections.edit (·.eraseIdx position) }
    reindex
  | setVariable v => do
    match (← get).document.vars.items.find? fun old => old.name == v.name && old.id != v.id with
    | some holder => throw (EditError.nameTaken v.id v.name holder.id).failure
    | none => write fun d => { d with vars := d.vars.edit (putVariable v) }
  | removeVariable id => do
    let d := (← get).document
    let rest := d.vars.items.filter fun v => v.id != id
    if rest.length = d.vars.items.length then throw (EditError.missingVariable id).failure
    else write fun d => { d with vars := .of rest }
  | addComment comment => do
    if (← get).document.comments.items.any fun c => c.id == comment.id then
      throw (EditError.commentTaken comment.id).failure
    else write fun d => { d with comments := d.comments.edit (· ++ [comment]) }
  | removeComment id => do
    let d := (← get).document
    let rest := d.comments.items.filter fun c => c.id != id
    if rest.length = d.comments.items.length then throw (EditError.missingComment id).failure
    else write fun d => { d with comments := .of rest }
  | setViewport viewport => write fun d => { d with viewport := .ofOption viewport }
  | locate id => do let _ ← ask (·.locate id)
  | locateConnection id => do let _ ← ask (·.locateConnection id)
  | pin at_ side => do let _ ← ask (·.pin at_ side)

/-- A call that comes to an editor leaves that editor, one that fails leaves the old one. -/
def settled (e : Editor) : Except Failure Editor → Except Failure Unit × Editor
  | .ok after => (.ok (), after)
  | .error f => (.error f, e)

section scripts

variable {catalog : Catalog} {e : Editor}

/-- What can fail goes before the rest, and ends the call if it does. -/
theorem ofExcept_out {x : Except Failure α} {next : α → Act Editor Unit} {edit : α → Except Failure Editor}
    (rest : ∀ a, x = .ok a → (next a).out e = settled e (edit a)) :
    (Act.ofExcept x >>= next).out e = settled e (x >>= edit) := by
  rw [Act.out_bind, Act.out_ofExcept]
  cases known : x with
  | error f => rfl
  | ok a => exact rest a known

theorem ask_out {question : Editor → Except EditError α} {next : α → Act Editor Unit}
    {edit : α → Except Failure Editor} (rest : ∀ a, question e = .ok a → (next a).out e = settled e (edit a)) :
    (ask question >>= next).out e = settled e ((question e).mapError EditError.failure >>= edit) :=
  ofExcept_out fun a known => rest a (mapError_eq_ok_iff.mp known)

theorem ask_edit_out {question : Editor → Except EditError α} {next : α → Act Editor Unit}
    {edit : α → Except EditError Editor}
    (rest : ∀ a, question e = .ok a → (next a).out e = settled e ((edit a).mapError EditError.failure)) :
    (ask question >>= next).out e = settled e ((question e >>= edit).mapError EditError.failure) := by
  rw [ask_out rest]
  cases question e <;> rfl

theorem enterNode_out (node : Node) :
    (enterNode node).out e = settled e ((e.addNode node).mapError EditError.failure) := by
  rw [enterNode, Act.out_bind_of_ok Act.out_get, addNode]
  cases e.hasNode node.id with
  | true => rfl
  | false =>
    have last : (e.document.nodes.items ++ [node]).length - 1 = e.document.nodes.items.length := by simp
    have written : (writeNodes (· ++ [node])).out e =
        (.ok (), { e with document := { e.document with nodes := e.document.nodes.edit (· ++ [node]) } }) := rfl
    simp only [Bool.false_eq_true, if_false, Act.out_bind_of_ok written, Act.out_modify, Collection.edit, last]
    rfl

theorem enterConnection_out (c : Connection) : (enterConnection c).out e = settled e (.ok (e.pushConnection c)) := by
  have last : (e.document.connections.items ++ [c]).length - 1 = e.document.connections.items.length := by simp
  have written : (write fun d => { d with connections := d.connections.edit (· ++ [c]) }).out e =
      (.ok (), { e with document := { e.document with
        connections := e.document.connections.edit (· ++ [c]) } }) := rfl
  rw [enterConnection, Act.out_bind_of_ok written, Act.out_modify]
  simp only [Collection.edit, last]
  rfl

theorem touchNode_of_located {id : String} {position : Nat} {node : Node}
    (located : e.locate id = .ok (position, node)) (change : Node → Node) :
    (touchNode id change).out e = (writeNodes (·.modify position change)).out e := by
  have asked : (ask (·.locate id)).out e = (.ok (position, node), e) := by
    rw [ask, Act.out_bind_of_ok Act.out_get, Act.out_ofExcept, located]
    rfl
  rw [touchNode, Act.out_bind_of_ok asked]

theorem touchNode_out (id : String) (change : Node → Node) :
    (touchNode id change).out e = settled e ((e.changeNode id change).mapError EditError.failure) := by
  refine ask_edit_out fun (position, node) located => ?_
  obtain ⟨present, -⟩ := locate_eq_ok located
  have changed : e.document.nodes.items.modify position change =
      e.document.nodes.items.set position (change node) := by
    rw [List.modify_eq_set_getElem?, present]
    rfl
  change (writeNodes (·.modify position change)).out e = _
  simp only [writeNodes, write, Act.out_modify, Collection.edit, changed]
  rfl

theorem setLooks_out (position : Nat) (changes : Json.Fields) :
    (setLooks position changes).out e = (.ok (), { e with document := { e.document with
      nodes := e.document.nodes.edit (·.modify position fun node => changes.foldl Node.setLook node) } }) := by
  induction changes generalizing e with
  | nil =>
    have same : e.document.nodes.items.modify position (fun node => node) = e.document.nodes.items :=
      List.modify_id position _
    simp only [List.foldl_nil, Collection.edit, same]
    rfl
  | cons field rest ih =>
    have written : (writeNodes (·.modify position (·.setLook field))).out e =
        (.ok (), { e with document := { e.document with
          nodes := e.document.nodes.edit (·.modify position (·.setLook field)) } }) := rfl
    rw [setLooks, Act.out_bind_of_ok written, ih]
    simp only [Collection.edit, List.modify_modify_eq, List.foldl_cons]
    rfl

/-- A node of a type is added in three steps: the type is looked up, the ids are checked, and the node is added. -/
theorem addNodeOfType_eq (type id : String) (position : Point) (label : Option String) (data : Json.Fields) :
    (e.addNodeOfType catalog type id position label data).mapError EditError.failure =
      (catalog.find? type).elim (.error (EditError.unknownType type catalog.ids).failure) .ok >>= fun t =>
        (checkNames id t).toExcept.mapError .invalid >>= fun _ =>
          (e.addNode (t.create id position label data)).mapError EditError.failure := by
  rw [addNodeOfType]
  cases catalog.find? type with
  | none => rfl
  | some t =>
    change _ = (checkNames id t).toExcept.mapError Failure.invalid >>= _
    dsimp only
    cases checkNames id t <;> rfl

/-- The writes of a call come to its answer. A call that fails has written nothing. -/
theorem script_out (call : Call) : (call.script catalog).out e = settled e (call.answer catalog e) := by
  cases call with
  | addNode node => exact enterNode_out node
  | addNodeOfType type id position label data =>
    rw [Call.answer, addNodeOfType_eq]
    exact ofExcept_out fun t _ => ofExcept_out fun _ _ => enterNode_out _
  | addDraft type draft =>
    have edited : (e.addDraft catalog type draft).map Prod.fst =
        catalog.build type draft (EditError.unknownType type catalog.ids).failure >>= fun node =>
          (e.addNode node).mapError EditError.failure := by
      rw [addDraft]
      cases catalog.build type draft (EditError.unknownType type catalog.ids).failure with
      | error f => rfl
      | ok node =>
        change ((e.addNode node).mapError EditError.failure >>= fun after => pure (after, node.id)).map Prod.fst =
          (e.addNode node).mapError EditError.failure
        cases e.addNode node <;> rfl
    rw [Call.answer, edited]
    exact ofExcept_out fun node _ => enterNode_out node
  | removeNode id => exact ask_edit_out fun _ _ => rfl
  | updateNodeData id patch => exact touchNode_out id _
  | updateNode id changes => exact touchNode_out id _
  | assign id changes =>
    rw [Call.script, Call.answer, assign]
    refine ask_out fun (position, node) located => ?_
    cases changes.keys.filter fun key => !Node.lookNames.contains key with
    | nil =>
      change (setLooks position changes).out e = settled e ((e.changeNode id _).mapError EditError.failure)
      rw [← touchNode_out, touchNode_of_located located, setLooks_out]
      rfl
    | cons key unknown => rfl
  | moveNode id position => exact touchNode_out id _
  | moveTo id position =>
    refine ask_out fun (place, node) located => ofExcept_out fun position _ => ?_
    exact (touchNode_of_located located _).symm.trans (touchNode_out id _)
  | addConnection source target choice id =>
    rw [Call.script, Call.answer, addConnection, map_bind_eq]
    refine ask_edit_out fun producer _ => ?_
    rw [map_bind_eq]
    refine ask_edit_out fun consumer _ => ?_
    rcases choice.resolve producer.kind with ⟨link, word⟩
    dsimp only
    rw [map_bind_eq]
    refine ask_edit_out fun _ _ => ?_
    rw [map_bind_eq]
    refine ask_edit_out fun id _ => ?_
    cases makeConnection id source target word with
    | bad issues => rfl
    | ok c => exact enterConnection_out c
  | removeConnection id => exact ask_edit_out fun _ _ => rfl
  | setVariable v =>
    rw [Call.script, Call.answer, Act.out_bind_of_ok Act.out_get, setVariable]
    cases e.document.vars.items.find? fun old => old.name == v.name && old.id != v.id <;> rfl
  | removeVariable id =>
    rw [Call.script, Call.answer, Act.out_bind_of_ok Act.out_get, removeVariable]
    dsimp only
    split <;> rfl
  | addComment comment =>
    rw [Call.script, Call.answer, Act.out_bind_of_ok Act.out_get, addComment]
    split <;> rfl
  | removeComment id =>
    rw [Call.script, Call.answer, Act.out_bind_of_ok Act.out_get, removeComment]
    dsimp only
    split <;> rfl
  | setViewport viewport => rfl
  | locate id => exact ask_edit_out fun _ _ => rfl
  | locateConnection id => exact ask_edit_out fun _ _ => rfl
  | pin at_ side => exact ask_edit_out fun _ _ => rfl

end scripts

end Editor

end Flowchart
