import Flowchart.Proofs.Edit.Effect

/-!
# Edits keep a flowchart well formed

`Operation.Effect.wellFormed`: the effect of an operation on a well-formed flowchart is well formed,
provided that a node is not taken away before its connections. The lemmas of `Document.WellFormed` say
the same of each kind of change.
-/

namespace Flowchart

/-- The pins that new nodes of a type start with are distinct. -/
structure NodeType.PinsDistinct (t : NodeType) : Prop where
  ids : ((t.pins .input ++ t.pins .output).map Pin.id).Nodup
  names : ∀ side, ((t.pins side).map Pin.name).Nodup

def Catalog.PinsDistinct (catalog : Catalog) : Prop := ∀ t ∈ catalog.types, t.PinsDistinct

theorem NodeType.create_pinsDistinct {t : NodeType} (distinct : t.PinsDistinct) (id : String)
    (position : Point) (label : Option String) (data : Json.Fields) :
    (t.create id position label data).PinsDistinct :=
  ⟨distinct.ids, fun side => by cases side; exacts [distinct.names .input, distinct.names .output]⟩

/-- What of a node decides whether a flowchart is well formed. -/
def Node.outline (node : Node) : String × (Side → List Pin) := (node.id, node.pins)

/-- A node that an operation carries whole has distinct pins. -/
def Operation.PinsDistinct (operation : Operation) : Prop :=
  ∀ a node, operation = .addNode a → a.node.get? = some node → node.PinsDistinct

theorem Operation.change?_keepsPins {operation : Operation} {id : String} {change : Node → Node}
    (changes : operation.change? = some (id, change)) (node : Node) :
    (change node).pins = node.pins := by
  cases operation <;> simp only [change?, reduceCtorEq, Option.some.injEq, Prod.mk.injEq] at changes
  all_goals obtain ⟨rfl, rfl⟩ := changes; funext side; cases side <;> rfl

namespace Document

variable {d after : Document}

/-- A pin is still there if the nodes with its node's id have kept id and pins. -/
theorem HasPin.transfer {e : End} {side : Side} {pin : Pin} (has : d.HasPin e side pin)
    (kept : ∀ node ∈ d.nodes.items, node.id = e.node →
      ∃ other ∈ after.nodes.items, other.id = node.id ∧ other.pins = node.pins) :
    after.HasPin e side pin := by
  obtain ⟨node, member, same, pins⟩ := has
  obtain ⟨other, otherMember, sameId, samePins⟩ := kept node member same
  exact ⟨other, otherMember, sameId.trans same, samePins ▸ pins⟩

theorem Joins.transfer {c : Connection} (joins : d.Joins c)
    (kept : ∀ node ∈ d.nodes.items, c.touches node.id = true →
      ∃ other ∈ after.nodes.items, other.id = node.id ∧ other.pins = node.pins) :
    after.Joins c := by
  obtain ⟨source, target, produces, consumes, objection⟩ := joins
  refine ⟨source, target, produces.transfer fun node member same => kept node member ?_,
    consumes.transfer fun node member same => kept node member ?_, objection⟩
  · simp [Connection.touches, same]
  · simp [Connection.touches, same]

namespace WellFormed

theorem addNode (wellFormed : d.WellFormed) {node : Node} (distinct : node.PinsDistinct)
    (fresh : node.id ∉ d.nodes.items.map Node.id) :
    WellFormed { d with nodes := d.nodes.edit (· ++ [node]) } where
  nodeIds := by
    simpa [Collection.edit, List.nodup_append] using ⟨wellFormed.nodeIds, by simpa using fresh⟩
  pins other member := by
    rcases List.mem_append.mp member with old | new
    · exact wellFormed.pins other old
    · exact List.mem_singleton.mp new ▸ distinct
  connectionIds := wellFormed.connectionIds
  joins c member := (wellFormed.joins c member).transfer fun node member _ =>
    ⟨node, List.mem_append_left _ member, rfl, rfl⟩
  dataTargets := wellFormed.dataTargets
  variableIds := wellFormed.variableIds
  variableNames := wellFormed.variableNames
  commentIds := wellFormed.commentIds

theorem removeNode (wellFormed : d.WellFormed) {id : String} (bare : d.incident id = []) :
    WellFormed { d with nodes := .of (d.nodes.items.filter fun node => node.id != id) } where
  nodeIds := wellFormed.nodeIds.sublist (List.filter_sublist.map Node.id)
  pins node member := wellFormed.pins node (List.mem_of_mem_filter member)
  connectionIds := wellFormed.connectionIds
  joins c member := (wellFormed.joins c member).transfer fun node nodeMember touches => by
    have apart : node.id ≠ id := by
      rintro rfl
      exact List.filter_eq_nil_iff.mp bare c member touches
    exact ⟨node, List.mem_filter.mpr ⟨nodeMember, by simpa using apart⟩, rfl, rfl⟩
  dataTargets := wellFormed.dataTargets
  variableIds := wellFormed.variableIds
  variableNames := wellFormed.variableNames
  commentIds := wellFormed.commentIds

/-- Nodes may be changed in all but their outlines. -/
theorem mapNodes (wellFormed : d.WellFormed) {nodes : Collection Node}
    (outlines : nodes.items.map Node.outline = d.nodes.items.map Node.outline) :
    WellFormed { d with nodes } where
  nodeIds := by
    have ids := congrArg (List.map Prod.fst) outlines
    simp only [List.map_map] at ids
    exact ids ▸ wellFormed.nodeIds
  pins node member := by
    obtain ⟨old, oldMember, same⟩ :=
      List.mem_map.mp (outlines ▸ List.mem_map_of_mem member : node.outline ∈ _)
    have distinct := wellFormed.pins old oldMember
    have pins : old.pins = node.pins := congrArg Prod.snd same
    exact ⟨pins ▸ distinct.ids, pins ▸ distinct.names⟩
  connectionIds := wellFormed.connectionIds
  joins c member := (wellFormed.joins c member).transfer fun node nodeMember _ => by
    obtain ⟨other, otherMember, same⟩ :=
      List.mem_map.mp (outlines ▸ List.mem_map_of_mem nodeMember : node.outline ∈ _)
    exact ⟨other, otherMember, congrArg Prod.fst same, congrArg Prod.snd same⟩
  dataTargets := wellFormed.dataTargets
  variableIds := wellFormed.variableIds
  variableNames := wellFormed.variableNames
  commentIds := wellFormed.commentIds

theorem addConnection (wellFormed : d.WellFormed) {c : Connection} (joins : d.Joins c)
    (free : c.link = .data → c.target ∉ d.dataTargets)
    (fresh : c.id ∉ d.connections.items.map Connection.id) :
    WellFormed { d with connections := d.connections.edit (· ++ [c]) } where
  nodeIds := wellFormed.nodeIds
  pins := wellFormed.pins
  connectionIds := by
    simpa [Collection.edit, List.nodup_append] using ⟨wellFormed.connectionIds, by simpa using fresh⟩
  joins other member := by
    rcases List.mem_append.mp member with old | new
    · exact wellFormed.joins other old
    · exact List.mem_singleton.mp new ▸ joins
  dataTargets := by
    have targets := wellFormed.dataTargets
    simp only [Document.dataTargets, Collection.edit, List.filter_append, List.map_append]
    -- only a data connection occupies its input
    by_cases data : c.link = .data
    · have apart := free data
      simp only [data, beq_self_eq_true, List.filter_cons_of_pos, List.filter_nil, List.map_cons,
        List.map_nil, List.nodup_append, List.nodup_singleton, List.mem_singleton]
      exact ⟨targets, trivial, fun target member other same => by
        rw [same]; rintro rfl; exact apart member⟩
    · simpa [data, Document.dataTargets] using targets
  variableIds := wellFormed.variableIds
  variableNames := wellFormed.variableNames
  commentIds := wellFormed.commentIds

theorem dropConnections (wellFormed : d.WellFormed) {connections : Collection Connection}
    (fewer : connections.items.Sublist d.connections.items) :
    WellFormed { d with connections } where
  nodeIds := wellFormed.nodeIds
  pins := wellFormed.pins
  connectionIds := wellFormed.connectionIds.sublist (fewer.map Connection.id)
  joins c member := wellFormed.joins c (fewer.subset member)
  dataTargets := wellFormed.dataTargets.sublist ((fewer.filter _).map Connection.target)
  variableIds := wellFormed.variableIds
  variableNames := wellFormed.variableNames
  commentIds := wellFormed.commentIds

theorem setVariables (wellFormed : d.WellFormed) {vars : Collection Variable}
    (ids : (vars.items.map Variable.id).Nodup) (names : (vars.items.map Variable.name).Nodup) :
    WellFormed { d with vars } :=
  { wellFormed with variableIds := ids, variableNames := names }

theorem setComments (wellFormed : d.WellFormed) {comments : Collection Comment}
    (ids : (comments.items.map Comment.id).Nodup) : WellFormed { d with comments } :=
  { wellFormed with commentIds := ids }

end WellFormed

end Document

/-! ### Variables -/

namespace Editor

theorem mem_putVariable {v w : Variable} {vars : List Variable}
    (member : w ∈ putVariable v vars) : w = v ∨ w ∈ vars := by
  induction vars with
  | nil => simpa [putVariable] using member
  | cons old vars ih =>
    unfold putVariable at member
    split at member <;> grind

theorem putVariable_ids {v : Variable} {vars : List Variable}
    (distinct : (vars.map Variable.id).Nodup) :
    ((putVariable v vars).map Variable.id).Nodup := by
  induction vars with
  | nil => simp [putVariable]
  | cons old vars ih =>
    obtain ⟨fresh, distinct⟩ := List.nodup_cons.mp distinct
    unfold putVariable
    split
    next same => exact List.nodup_cons.mpr ⟨same ▸ fresh, distinct⟩
    next other =>
      refine List.nodup_cons.mpr ⟨fun again => ?_, ih distinct⟩
      obtain ⟨w, member, same⟩ := List.mem_map.mp again
      rcases mem_putVariable member with rfl | kept
      · exact other same.symm
      · exact fresh (List.mem_map.mpr ⟨w, kept, same⟩)

/-- No two variables get the same name if only the variable that is replaced may have had it. -/
theorem putVariable_names {v : Variable} {vars : List Variable}
    (distinct : (vars.map Variable.id).Nodup) (names : (vars.map Variable.name).Nodup)
    (free : ∀ old ∈ vars, old.name = v.name → old.id = v.id) :
    ((putVariable v vars).map Variable.name).Nodup := by
  induction vars with
  | nil => simp [putVariable]
  | cons old vars ih =>
    obtain ⟨freshId, distinct⟩ := List.nodup_cons.mp distinct
    obtain ⟨freshName, names⟩ := List.nodup_cons.mp names
    have freeBelow : ∀ w ∈ vars, w.name = v.name → w.id = v.id := fun w member =>
      free w (List.mem_cons_of_mem old member)
    unfold putVariable
    split
    -- a later variable with the new name would have the id that is replaced here
    next same =>
      refine List.nodup_cons.mpr ⟨fun again => ?_, names⟩
      obtain ⟨w, member, sameName⟩ := List.mem_map.mp again
      exact freshId (List.mem_map.mpr ⟨w, member, (freeBelow w member sameName).trans same.symm⟩)
    next other =>
      refine List.nodup_cons.mpr ⟨fun again => ?_, ih distinct names freeBelow⟩
      obtain ⟨w, member, sameName⟩ := List.mem_map.mp again
      rcases mem_putVariable member with rfl | kept
      · exact other (free old List.mem_cons_self sameName.symm)
      · exact freshName (List.mem_map.mpr ⟨w, kept, sameName⟩)

end Editor

/-- An operation keeps a flowchart well formed, unless it takes away a node with connections. -/
theorem Operation.Effect.wellFormed {catalog : Catalog} (templates : catalog.PinsDistinct)
    {d after : Document} {operation recorded : Operation}
    (effect : Effect catalog d operation after recorded) (wellFormed : d.WellFormed)
    (pins : operation.PinsDistinct) (bare : ∀ id, operation = .removeNode id → d.incident id = []) :
    after.WellFormed := by
  cases effect with
  | addNode given fresh => exact wellFormed.addNode (pins _ _ rfl given) fresh
  | addTypedNode absent known named fresh =>
    exact wellFormed.addNode (NodeType.create_pinsDistinct (templates _ known) ..) fresh
  | removeNode present => exact wellFormed.removeNode (bare _ rfl)
  | @changeNode _ id change position node changes present same =>
    -- the three operations that change a node in its place keep its id and its pins
    refine wellFormed.mapNodes ?_
    have outline : (change node).outline = node.outline :=
      Prod.ext (change?_keepsId changes node) (change?_keepsPins changes node)
    obtain ⟨bound, rfl⟩ := List.getElem?_eq_some_iff.mp present
    rw [Collection.edit, List.map_set, outline,
      ← List.getElem_map Node.outline (h := by simpa using bound), List.set_getElem_self]
  | addConnection source target named produces consumes joins free fresh =>
    exact wellFormed.addConnection ⟨_, _, produces, consumes, joins⟩ free fresh
  | removeConnection present same =>
    exact wellFormed.dropConnections (List.eraseIdx_sublist ..)
  | setVariable free =>
    exact wellFormed.setVariables (Editor.putVariable_ids wellFormed.variableIds)
      (Editor.putVariable_names wellFormed.variableIds wellFormed.variableNames free)
  | removeVariable present =>
    exact wellFormed.setVariables
      (wellFormed.variableIds.sublist (List.filter_sublist.map Variable.id))
      (wellFormed.variableNames.sublist (List.filter_sublist.map Variable.name))
  | addComment fresh =>
    refine wellFormed.setComments ?_
    simpa [Collection.edit, List.nodup_append] using ⟨wellFormed.commentIds, by simpa using fresh⟩
  | removeComment present =>
    exact wellFormed.setComments (wellFormed.commentIds.sublist (List.filter_sublist.map Comment.id))
  | setViewport => exact { wellFormed with }

end Flowchart
