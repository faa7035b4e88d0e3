import Mathlib.Data.List.Forall2
import Flowchart.Proofs.Edit.Effect
import Flowchart.Proofs.Validation.Derived

/-!
# Two working copies side by side

The same batch on two working copies comes to the same as long as they differ in nothing that an edit looks
at: in how their indices were built, in the findings that stand on their nodes, and in whether the list of
nodes was given.

* `Node.Congruence`: a relation of nodes that edits keep and do not see.
* `Document.Alike`, `Editor.Alike`: flowcharts and working copies whose nodes are related one by one.
* `Operation.applyTo_alike`: an operation fails on both copies in the same way, or leaves them alike.
* `applyExpanded_alike`: so does a batch.
-/

namespace Flowchart

variable {same : Node → Node → Prop} {marks : Prop} {catalog : Catalog}

/-- Nodes that are related differ in their findings at most, and are still related after the same change. -/
structure Node.Congruence (same : Node → Node → Prop) : Prop where
  refl : ∀ node, same node node
  bare : ∀ {node other}, same node other → node.bare = other.bare
  change : ∀ {operation id change node other}, Operation.change? operation = some (id, change) →
    same node other → same (change node) (change other)

theorem Node.Congruence.eq : Node.Congruence Eq :=
  ⟨fun _ => rfl, fun same => congrArg _ same, fun _ same => congrArg _ same⟩

/-- A change neither reads the findings of a node nor writes them. -/
theorem Operation.change?_bare {operation : Operation} {id : String} {change : Node → Node}
    (changes : operation.change? = some (id, change)) (node : Node) :
    (change node).bare = change node.bare := by
  cases operation <;> simp only [change?, reduceCtorEq, Option.some.injEq, Prod.mk.injEq] at changes
  all_goals obtain ⟨rfl, rfl⟩ := changes; rfl

theorem Node.Congruence.bareEq : Node.Congruence fun node other => node.bare = other.bare where
  refl _ := rfl
  bare same := same
  change changes same := by
    rw [Operation.change?_bare changes, same, Operation.change?_bare changes]

namespace Node.Congruence

variable (congruence : Node.Congruence same) {node other : Node}

include congruence

theorem id_eq (related : same node other) : node.id = other.id :=
  (congrArg Node.id (congruence.bare related) : node.bare.id = other.bare.id)

theorem pin?_eq (related : same node other) (side : Side) (id : String) :
    node.pin? side id = other.pin? side id := by
  rw [← node.bare_pin?, congruence.bare related, other.bare_pin?]

theorem ids_eq {nodes others : List Node} (related : List.Forall₂ same nodes others) :
    nodes.map Node.id = others.map Node.id := by
  induction related with
  | nil => rfl
  | cons first _ ih => rw [List.map_cons, List.map_cons, congruence.id_eq first, ih]

end Node.Congruence

/-! ### Related lists -/

theorem forall₂_getElem? {R : α → β → Prop} {items : List α} {others : List β}
    (related : List.Forall₂ R items others) (position : Nat) :
    Option.Rel R items[position]? others[position]? := by
  induction related generalizing position with
  | nil => exact .none
  | cons first _ ih =>
    cases position with
    | zero => exact .some first
    | succ position => exact ih position

theorem forall₂_set {R : α → β → Prop} {items : List α} {others : List β}
    (related : List.Forall₂ R items others) (position : Nat) {a : α} {b : β} (new : R a b) :
    List.Forall₂ R (items.set position a) (others.set position b) := by
  induction related generalizing position with
  | nil => exact .nil
  | cons first rest ih =>
    cases position with
    | zero => exact .cons new rest
    | succ position => exact .cons first (ih position)

/-! ### Flowcharts and working copies -/

/-- The nodes are related one by one, and all else is equal; whether the list of nodes was given is, if
`marks` holds. -/
structure Document.Alike (same : Node → Node → Prop) (marks : Prop) (d other : Document) : Prop where
  nodes : List.Forall₂ same d.nodes.items other.nodes.items
  given : marks → d.nodes.given = other.nodes.given
  connections : d.connections = other.connections
  vars : d.vars = other.vars
  comments : d.comments = other.comments
  viewport : d.viewport = other.viewport

/-- Working copies with exact indices, of flowcharts that are alike. -/
structure Editor.Alike (same : Node → Node → Prop) (marks : Prop) (e other : Editor) : Prop where
  document : e.document.Alike same marks other.document
  indexed : e.Indexed
  otherIndexed : other.Indexed

theorem Document.Alike.ids_eq (congruence : Node.Congruence same) {d other : Document}
    (alike : d.Alike same marks other) : d.nodes.items.map Node.id = other.nodes.items.map Node.id :=
  congruence.ids_eq alike.nodes

theorem Document.Alike.incident_eq {d other : Document} (alike : d.Alike same marks other) (node : String) :
    d.incident node = other.incident node := by
  rw [incident, incident, alike.connections]

/-- Exact indices of the same ids find the same positions. -/
theorem Positions.Exact.lookup_eq {positions others : Positions} {ids : List String}
    (exact : positions.Exact ids) (otherExact : others.Exact ids) (id : String) :
    positions.lookup id = others.lookup id :=
  Option.ext fun position => (exact id position).trans (otherExact id position).symm

namespace Editor.Alike

variable {e other : Editor}

/-! #### What is looked up among the connections -/

section

variable (alike : Editor.Alike same marks e other)

include alike

theorem connectionLookup_eq (id : String) : e.connectionIndex.lookup id = other.connectionIndex.lookup id :=
  alike.indexed.connections.lookup_eq (alike.document.connections ▸ alike.otherIndexed.connections) id

theorem hasConnection_eq (id : String) : e.hasConnection id = other.hasConnection id :=
  congrArg Option.isSome (alike.connectionLookup_eq id)

theorem locateConnection_eq (id : String) : e.locateConnection id = other.locateConnection id := by
  rw [locateConnection, locateConnection, alike.connectionLookup_eq, alike.document.connections]

theorem checkJoin_eq (source target : End) (producer consumer : Kind) (link : Link) (word : String) :
    e.checkJoin source target producer consumer link word =
      other.checkJoin source target producer consumer link word := by
  rw [checkJoin, checkJoin, holder?, holder?, alike.document.connections]

/-- Of the candidates, the first that is free is the same for both. The indices may be of different lengths,
so that one search may have more fuel than the other. -/
theorem freshConnectionId_eq (source target : End) :
    e.freshConnectionId source target = other.freshConnectionId source target := by
  obtain ⟨j, first, chosen, free, taken⟩ := e.exists_freshConnectionId source target
  obtain ⟨k, otherFirst, otherChosen, otherFree, otherTaken⟩ := other.exists_freshConnectionId source target
  rw [alike.hasConnection_eq] at free
  have notLater : ¬k < j := fun before => by
    have used := taken k otherFirst before
    rw [alike.hasConnection_eq, otherFree] at used
    cases used
  have notEarlier : ¬j < k := fun before => by
    have used := otherTaken j first before
    rw [free] at used
    cases used
  rw [chosen, otherChosen, show j = k by omega]

theorem chooseId_eq (source target : End) (given : Option String) :
    e.chooseId source target given = other.chooseId source target given := by
  cases given with
  | none => rw [chooseId, chooseId, alike.freshConnectionId_eq]
  | some id => rw [chooseId, chooseId, alike.hasConnection_eq]

/-! #### Edits of connections, variables and comments -/

theorem removeConnection (id : String) :
    Agree (fun edited there => edited.document.Alike same marks there.document) (e.removeConnection id)
      (other.removeConnection id) := by
  unfold Editor.removeConnection
  rw [alike.locateConnection_eq]
  refine .bind (.refl (fun _ => rfl) _) ?_
  rintro position _ rfl
  exact .ok { alike.document with
    connections := congrArg (Collection.edit · (List.eraseIdx · position)) alike.document.connections }

theorem setVariable (v : Variable) :
    Agree (fun edited there => edited.document.Alike same marks there.document) (e.setVariable v)
      (other.setVariable v) := by
  rw [Editor.setVariable, Editor.setVariable, alike.document.vars]
  split
  · exact .error _
  · exact .ok { alike.document with vars := rfl }

theorem removeVariable (id : String) :
    Agree (fun edited there => edited.document.Alike same marks there.document) (e.removeVariable id)
      (other.removeVariable id) := by
  rw [Editor.removeVariable, Editor.removeVariable, alike.document.vars]
  split
  · exact .error _
  · exact .ok { alike.document with vars := rfl }

theorem addComment (comment : Comment) :
    Agree (fun edited there => edited.document.Alike same marks there.document) (e.addComment comment)
      (other.addComment comment) := by
  rw [Editor.addComment, Editor.addComment, alike.document.comments]
  split
  · exact .error _
  · exact .ok { alike.document with comments := rfl }

theorem removeComment (id : String) :
    Agree (fun edited there => edited.document.Alike same marks there.document) (e.removeComment id)
      (other.removeComment id) := by
  rw [Editor.removeComment, Editor.removeComment, alike.document.comments]
  split
  · exact .error _
  · exact .ok { alike.document with comments := rfl }

end

section

variable (congruence : Node.Congruence same) (alike : Editor.Alike same marks e other)

include congruence alike

/-! #### What is looked up among the nodes -/

theorem nodeLookup_eq (id : String) : e.nodeIndex.lookup id = other.nodeIndex.lookup id :=
  alike.indexed.nodes.lookup_eq (alike.document.ids_eq congruence ▸ alike.otherIndexed.nodes) id

theorem hasNode_eq (id : String) : e.hasNode id = other.hasNode id :=
  congrArg Option.isSome (alike.nodeLookup_eq congruence id)

theorem locate (id : String) :
    Agree (fun found there => found.1 = there.1 ∧ same found.2 there.2) (e.locate id) (other.locate id) := by
  rw [Editor.locate, Editor.locate, alike.nodeLookup_eq congruence]
  cases other.nodeIndex.lookup id with
  | none => exact .error _
  | some position =>
    dsimp only
    have atPosition := forall₂_getElem? alike.document.nodes position
    revert atPosition
    generalize e.document.nodes.items[position]? = here
    generalize other.document.nodes.items[position]? = there
    rintro (related | _)
    · dsimp only
      rw [congruence.id_eq related]
      split
      · exact .ok ⟨rfl, related⟩
      · exact .error _
    · exact .error _

theorem pin_eq (at_ : End) (side : Side) : e.pin at_ side = other.pin at_ side := by
  have agree : Agree Eq (e.pin at_ side) (other.pin at_ side) := by
    refine (alike.locate congruence at_.node).bind fun found there related => ?_
    dsimp only
    rw [congruence.pin?_eq related.2, congruence.pin?_eq related.2]
    exact .refl (fun _ => rfl) _
  exact agree.eq

/-! #### Edits of nodes, and new connections -/

theorem addNode (node : Node) :
    Agree (fun edited there => edited.document.Alike same marks there.document) (e.addNode node)
      (other.addNode node) := by
  rw [Editor.addNode, Editor.addNode, alike.hasNode_eq congruence]
  split
  · exact .error _
  · exact .ok { alike.document with
      nodes := List.rel_append alike.document.nodes (.cons (congruence.refl node) .nil) }

theorem addNodeOfType (type id : String) (position : Point) (label : Option String) (data : Json.Fields) :
    Agree (fun edited there => edited.document.Alike same marks there.document)
      (e.addNodeOfType catalog type id position label data)
      (other.addNodeOfType catalog type id position label data) := by
  unfold Editor.addNodeOfType
  split
  · exact .error _
  · split
    · exact .error _
    · exact alike.addNode congruence _

theorem removeNode (id : String) :
    Agree (fun edited there => edited.document.Alike same marks there.document) (e.removeNode id)
      (other.removeNode id) := by
  refine (alike.locate congruence id).bind fun _ _ _ => .ok { alike.document with nodes := ?_, given := ?_ }
  · refine List.rel_filter (fun node there related => ?_) alike.document.nodes
    change (node.id != id) = true ↔ (there.id != id) = true
    rw [congruence.id_eq related]
  · exact fun _ => rfl

theorem changeNode (operation : Operation) {id : String} {change : Node → Node}
    (changes : operation.change? = some (id, change)) :
    Agree (fun edited there => edited.document.Alike same marks there.document) (e.changeNode id change)
      (other.changeNode id change) := by
  refine (alike.locate congruence id).bind fun found there ⟨position, related⟩ => .ok ?_
  exact { alike.document with
    nodes := position ▸ forall₂_set alike.document.nodes _ (congruence.change changes related) }

theorem addConnection (source target : End) (choice : LinkChoice) (id : Option String) :
    Agree (fun edited there => edited.1.document.Alike same marks there.1.document ∧ edited.2 = there.2)
      (e.addConnection source target choice id) (other.addConnection source target choice id) := by
  unfold Editor.addConnection
  rw [alike.pin_eq congruence]
  refine .bind (.refl (fun _ => rfl) _) ?_
  rintro producer _ rfl
  rw [alike.pin_eq congruence]
  refine .bind (.refl (fun _ => rfl) _) ?_
  rintro consumer _ rfl
  dsimp only
  rw [alike.checkJoin_eq, alike.chooseId_eq]
  refine .bind (.refl (fun _ => rfl) _) fun _ _ _ => .bind (.refl (fun _ => rfl) _) ?_
  rintro chosen _ rfl
  cases makeConnection chosen source target (choice.resolve producer.kind).2 with
  | bad issues => exact .error _
  | ok c =>
    refine .ok ⟨{ alike.document with connections := ?_ }, rfl⟩
    exact congrArg (Collection.edit · (· ++ [c])) alike.document.connections

end

end Editor.Alike

/-! ### Operations and batches -/

variable {e other : Editor}

namespace Operation

theorem applyTo_document (congruence : Node.Congruence same) (alike : e.Alike same marks other)
    (operation : Operation) :
    Agree (fun done there => done.1.document.Alike same marks there.1.document ∧ done.2 = there.2)
      (operation.applyTo catalog e) (operation.applyTo catalog other) := by
  -- all operations but the two additions are recorded as they are
  have recorded {x y : Except EditError Editor}
      (edited : Agree (fun edited there => edited.document.Alike same marks there.document) x y) :
      Agree (fun done there => done.1.document.Alike same marks there.1.document ∧ done.2 = there.2)
        (x.map fun e => (e, operation)) (y.map fun e => (e, operation)) :=
    edited.map fun _ _ alike => ⟨alike, rfl⟩
  cases operation with
  | addNode a =>
    unfold applyTo
    dsimp only
    split
    next node _ => exact recorded (alike.addNode congruence node)
    next => exact recorded (alike.addNodeOfType congruence _ _ _ _ _)
  | removeNode id => exact recorded (alike.removeNode congruence id)
  | updateNodeData id patch => exact recorded (alike.changeNode congruence (.updateNodeData id patch) rfl)
  | updateNode id changes => exact recorded (alike.changeNode congruence (.updateNode id changes) rfl)
  | moveNode id position => exact recorded (alike.changeNode congruence (.moveNode id position) rfl)
  | addConnection j =>
    refine (alike.addConnection congruence j.source j.target (.ofSlot j.link) j.id.get?).map ?_
    rintro ⟨edited, c⟩ ⟨there, _⟩ ⟨related, rfl⟩
    exact ⟨related, rfl⟩
  | removeConnection id => exact recorded (alike.removeConnection id)
  | setVariable v => exact recorded (alike.setVariable v)
  | removeVariable id => exact recorded (alike.removeVariable id)
  | addComment comment => exact recorded (alike.addComment comment)
  | removeComment id => exact recorded (alike.removeComment id)
  | setViewport viewport => exact .ok ⟨{ alike.document with viewport := rfl }, rfl⟩

/-- An operation fails on both copies with the same error, or leaves them alike and is recorded as the same
operation. -/
theorem applyTo_alike (congruence : Node.Congruence same) (alike : e.Alike same marks other)
    (operation : Operation) :
    Agree (fun done there => done.1.Alike same marks there.1 ∧ done.2 = there.2)
      (operation.applyTo catalog e) (operation.applyTo catalog other) := by
  refine (applyTo_document congruence alike operation).attach.mono ?_
  rintro ⟨done, recorded⟩ ⟨there, _⟩ ⟨⟨document, rfl⟩, here, elsewhere⟩
  exact ⟨⟨document, (effect_of_applyTo alike.indexed here).2,
    (effect_of_applyTo alike.otherIndexed elsewhere).2⟩, rfl⟩

theorem expand_alike (congruence : Node.Congruence same) (alike : e.Alike same marks other)
    (operation : Operation) : operation.expand e = operation.expand other := by
  unfold expand
  simp only [alike.hasNode_eq congruence, alike.document.incident_eq]

end Operation

theorem applyAll_alike (congruence : Node.Congruence same) (alike : e.Alike same marks other)
    (operations : List Operation) :
    Agree (fun done there => done.1.Alike same marks there.1 ∧ done.2 = there.2)
      (applyAll catalog e operations) (applyAll catalog other operations) := by
  induction operations generalizing e other with
  | nil => exact .ok ⟨alike, rfl⟩
  | cons operation rest ih =>
    refine (Operation.applyTo_alike congruence alike operation).bind ?_
    rintro ⟨done, recorded⟩ ⟨there, _⟩ ⟨alike, rfl⟩
    refine (ih alike).bind ?_
    rintro ⟨done, others⟩ ⟨there, _⟩ ⟨alike, rfl⟩
    exact .ok ⟨alike, rfl⟩

/-- A batch fails on both copies with the same error, or leaves them alike and records the same operations. -/
theorem applyExpanded_alike (congruence : Node.Congruence same) (alike : e.Alike same marks other)
    (operations : List Operation) :
    Agree (fun done there => done.1.Alike same marks there.1 ∧ done.2 = there.2)
      (applyExpanded catalog e operations) (applyExpanded catalog other operations) := by
  induction operations generalizing e other with
  | nil => exact .ok ⟨alike, rfl⟩
  | cons operation rest ih =>
    unfold applyExpanded
    rw [Operation.expand_alike congruence alike]
    refine (applyAll_alike congruence alike _).bind ?_
    rintro ⟨done, recorded⟩ ⟨there, _⟩ ⟨alike, rfl⟩
    refine (ih alike).bind ?_
    rintro ⟨done, others⟩ ⟨there, _⟩ ⟨alike, rfl⟩
    exact .ok ⟨alike, rfl⟩

/-- A report does not tell flowcharts apart that are alike. -/
theorem Document.Alike.validate_eq (congruence : Node.Congruence same) {d other : Document}
    (alike : d.Alike same marks other) : validate catalog d = validate catalog other := by
  have nodes : d.nodes.items.map Node.bare = other.nodes.items.map Node.bare := by
    have related := alike.nodes
    generalize d.nodes.items = nodes at related
    generalize other.nodes.items = others at related
    induction related with
    | nil => rfl
    | cons first _ ih => rw [List.map_cons, List.map_cons, congruence.bare first, ih]
  exact validate_congr catalog nodes (congrArg Collection.items alike.connections)
    (congrArg Collection.items alike.vars) (congrArg Collection.items alike.comments)

end Flowchart
