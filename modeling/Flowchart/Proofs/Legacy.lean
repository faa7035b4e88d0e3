import Flowchart.Legacy
import Flowchart.Proofs.Edit.Failures
import Flowchart.Proofs.Edit.Soundness

/-!
# Flowcharts of the older format are accepted

* `Legacy.Consistent`: entries of the older format that name each other, with ids of their own.
* `Legacy.IdsApart`: the ids that are given and those that are made stay apart. `Legacy.nodup_edgeIds_iff`.
* `Legacy.convert_errors_eq_nil_iff`: consistent entries make a flowchart, and when it is without errors.

Edges that have no id get one that is made of their position only. No regard is had to the ids of the others.
-/

namespace Flowchart

/-- Nodes of a type have a pin that carries control, on a side. -/
def Catalog.Carries (catalog : Catalog) (type : String) (side : Side) : Prop :=
  ∃ t, catalog.find? type = some t ∧ ∃ pin ∈ t.pins side, pin.kind = .execution

/-- The pins that new nodes of every type start with have ids that are not empty. -/
def Catalog.PinsNamed (catalog : Catalog) : Prop :=
  ∀ t ∈ catalog.types, ∀ side, ∀ pin ∈ t.pins side, pin.id.isEmpty = false

theorem builtin_pinsNamed : Catalog.builtin.PinsNamed := by
  intro t member side pin has
  cases side with
  | input => exact ((builtin_sound t member).inputPins pin has).id
  | output => exact ((builtin_sound t member).outputPins pin has).id

theorem Link.execution_objection?_eq_none_iff {producer consumer : Kind} :
    Link.execution.objection? producer consumer = none ↔ producer = .execution ∧ consumer = .execution := by
  simp [objection?]

namespace Legacy

/-- Nodes have ids of their own and known types, and edges have ids of their own if they have any. They lead from
nodes to nodes that control may enter. -/
structure Consistent (catalog : Catalog) (nodes : List Node) (edges : List Edge) : Prop where
  nodeIds : (nodes.map Node.id).Nodup
  named : ∀ node ∈ nodes, node.id.isEmpty = false
  known : ∀ node ∈ nodes, (catalog.find? node.type).isSome
  edgeIds : (edges.filterMap Edge.id).Nodup
  edgesNamed : ∀ edge ∈ edges, edge.id ≠ some ""
  sources : ∀ edge ∈ edges, ∃ node ∈ nodes, node.id = edge.source
  targets : ∀ edge ∈ edges, ∃ node ∈ nodes, node.id = edge.target ∧ catalog.Carries node.type .input

/-! ### Ids of edges -/

theorem edgeId_of_none {edge : Edge} (none : edge.id = none) (position : Nat) :
    edgeId edge position = s!"conn-{position}" := by
  rw [edgeId, none]

theorem edgeId_of_some {edge : Edge} {id : String} (given : edge.id = some id) (named : id ≠ "")
    (position : Nat) : edgeId edge position = id := by
  rw [edgeId, given]
  split
  next none => cases none
  next empty => exact absurd (Option.some.inj empty) named
  next same => exact (Option.some.inj same).symm

/-- Ids that are made of different positions differ. -/
theorem madeId_injective {j k : Nat} (same : s!"conn-{j}" = s!"conn-{k}") : j = k := by
  have digits := congrArg String.toList same
  simp only [String.toList_append, toString] at digits
  have repr := List.append_cancel_left digits
  simpa using congrArg (Nat.ofDigitChars 10 · 0) repr

/-- Edges that were not given the same id have the same one if the id of one is made for the other. -/
theorem edgeId_eq_iff {edge other : Edge} {j k : Nat} (apart : j ≠ k) (named : edge.id ≠ some "")
    (otherNamed : other.id ≠ some "") (distinct : ∀ id, edge.id = some id → other.id ≠ some id) :
    edgeId edge j = edgeId other k ↔
      edge.id = none ∧ other.id = some s!"conn-{j}" ∨ other.id = none ∧ edge.id = some s!"conn-{k}" := by
  have known (edge : Edge) (named : edge.id ≠ some "") (id : String) (given : edge.id = some id) (position : Nat) :
      edgeId edge position = id :=
    edgeId_of_some given (fun empty => named (empty ▸ given)) position
  cases given : edge.id with
  | none =>
    rw [edgeId_of_none given]
    cases otherGiven : other.id with
    | none =>
      rw [edgeId_of_none otherGiven]
      simpa using mt madeId_injective apart
    | some id =>
      rw [known other otherNamed id otherGiven]
      simp [eq_comm]
  | some id =>
    rw [known edge named id given]
    cases otherGiven : other.id with
    | none =>
      rw [edgeId_of_none otherGiven]
      simp
    | some otherId =>
      rw [known other otherNamed otherId otherGiven]
      have differ : id ≠ otherId := fun same => distinct id given (same ▸ otherGiven)
      simpa using differ

/-- No edge was given the id that is made for one without. -/
def IdsApart (edges : List Edge) : Prop :=
  ∀ (position : Nat) (edge : Edge), edges[position]? = some edge → edge.id = none →
    some s!"conn-{position}" ∉ edges.map Edge.id

/-- Given and made ids together are distinct if and only if they stay apart. -/
theorem nodup_edgeIds_iff {edges : List Edge} (distinct : (edges.filterMap Edge.id).Nodup)
    (named : ∀ edge ∈ edges, edge.id ≠ some "") :
    (edges.zipIdx.map fun (edge, position) => edgeId edge position).Nodup ↔ IdsApart edges := by
  rw [List.Nodup, List.pairwise_map, List.pairwise_iff_getElem]
  simp only [List.length_zipIdx, List.getElem_zipIdx, Nat.zero_add]
  rw [List.Nodup, List.pairwise_filterMap, List.pairwise_iff_getElem] at distinct
  have same_iff : ∀ i j (first : i < edges.length) (second : j < edges.length), i < j →
      (edgeId edges[i] i = edgeId edges[j] j ↔
        edges[i].id = none ∧ edges[j].id = some s!"conn-{i}" ∨
          edges[j].id = none ∧ edges[i].id = some s!"conn-{j}") := by
    intro i j first second before
    exact edgeId_eq_iff (Nat.ne_of_lt before) (named _ (List.getElem_mem first)) (named _ (List.getElem_mem second))
      fun id given again => distinct i j first second before id given id again rfl
  constructor
  · intro apart position edge found none taken
    obtain ⟨bound, rfl⟩ := List.getElem?_eq_some_iff.mp found
    obtain ⟨other, member, given⟩ := List.mem_map.mp taken
    obtain ⟨j, inside, rfl⟩ := List.mem_iff_getElem.mp member
    rcases Nat.lt_trichotomy position j with before | rfl | after
    · exact apart position j bound inside before ((same_iff _ _ bound inside before).mpr (.inl ⟨none, given⟩))
    · rw [none] at given
      cases given
    · exact apart j position inside bound after ((same_iff _ _ inside bound after).mpr (.inr ⟨none, given⟩))
  · intro apart i j first second before same
    rcases (same_iff i j first second before).mp same with ⟨none, given⟩ | ⟨none, given⟩
    · exact apart i _ (List.getElem?_eq_getElem first) none (given ▸ List.mem_map_of_mem (List.getElem_mem second))
    · exact apart j _ (List.getElem?_eq_getElem second) none (given ▸ List.mem_map_of_mem (List.getElem_mem first))

/-! ### Parts of the flowchart -/

section parts

variable {catalog : Catalog} {nodes : List Node}

/-- The node of the flowchart that a node becomes. -/
def Node.drawn (catalog : Catalog) (node : Node) : Flowchart.Node where
  id := node.id
  type := node.type
  position := some ⟨node.place.x * scale, node.place.z * scale⟩
  label := .value (node.label.getD (((catalog.find? node.type).map NodeType.name).getD node.type))
  data := some node.data
  inputPins := some (((catalog.find? node.type).map NodeType.inputPins).getD [])
  outputPins := some (((catalog.find? node.type).map NodeType.outputPins).getD [])

/-- The connection that an edge becomes. -/
def Edge.connection (catalog : Catalog) (nodes : List Node) (edge : Edge) (position : Nat) : Connection :=
  ⟨edgeId edge position, ⟨edge.source, executionPinId catalog (typeOf nodes edge.source) .output⟩,
    ⟨edge.target, executionPinId catalog (typeOf nodes edge.target) .input⟩, .execution⟩

theorem Node.drawn_pins {node : Node} {t : NodeType} (known : catalog.find? node.type = some t) (side : Side) :
    (node.drawn catalog).pins side = t.pins side := by
  cases side <;> simp [drawn, Flowchart.Node.pins, NodeType.pins, known]

theorem Node.drawn_pinsDistinct_iff {node : Node} {t : NodeType} (known : catalog.find? node.type = some t) :
    (node.drawn catalog).PinsDistinct ↔ t.PinsDistinct := by
  constructor
  · rintro ⟨ids, names⟩
    simp only [drawn_pins known] at ids names
    exact ⟨ids, names⟩
  · rintro ⟨ids, names⟩
    simp only [← drawn_pins known] at ids names
    exact ⟨ids, names⟩

theorem convertNode_eq_ok {node : Node} (named : node.id.isEmpty = false) (typed : node.type.isEmpty = false) :
    convertNode catalog node = .ok (node.drawn catalog) := by
  simp [convertNode, Check.name_string, named, typed, Checked.under, Functor.map, Checked.map, Seq.seq,
    Checked.apply, Node.drawn]

theorem edgeId_named (edge : Edge) (position : Nat) : (edgeId edge position).isEmpty = false := by
  unfold edgeId
  split
  next => simp
  next => simp
  next filled _ => simpa using filled

/-- The pin that control passes through, if there is one. -/
theorem executionPinId_eq {type : String} {t : NodeType} {side : Side} (known : catalog.find? type = some t)
    (carries : ∃ pin ∈ t.pins side, pin.kind = .execution) :
    ∃ pin ∈ t.pins side, pin.kind = .execution ∧ executionPinId catalog type side = pin.id := by
  obtain ⟨pin, member, kind⟩ := carries
  cases found : (t.pins side).find? fun pin => pin.kind == .execution with
  | none => simpa [kind] using List.find?_eq_none.mp found pin member
  | some first =>
    refine ⟨first, List.mem_of_find?_eq_some found, by simpa using List.find?_some found, ?_⟩
    simp [executionPinId, known, found]

theorem executionPinId_named (pins : catalog.PinsNamed) (type : String) (side : Side) :
    (executionPinId catalog type side).isEmpty = false := by
  unfold executionPinId
  split
  next pin found =>
    obtain ⟨t, known, found⟩ := Option.bind_eq_some_iff.mp found
    exact pins t (List.mem_of_find?_eq_some known) side pin (List.mem_of_find?_eq_some found)
  next => rfl

theorem convertEdge_eq_ok (pins : catalog.PinsNamed) {edge : Edge} (source : edge.source.isEmpty = false)
    (target : edge.target.isEmpty = false) (position : Nat) :
    convertEdge catalog nodes edge position = .ok (edge.connection catalog nodes position) := by
  simp [convertEdge, Check.name_string, edgeId_named edge position, source, target, executionPinId_named pins,
    Checked.under, Functor.map, Checked.map, Seq.seq, Checked.apply, Edge.connection]

/-- Where no ids are repeated, the type that is looked up is the one of the node. -/
theorem typeOf_eq (distinct : (nodes.map Node.id).Nodup) {node : Node} (member : node ∈ nodes) :
    typeOf nodes node.id = node.type := by
  have reversed : (nodes.reverse.map Node.id).Nodup := by rwa [List.map_reverse, List.nodup_reverse]
  have found := (find?_key_eq_some_iff reversed node.id node).mpr ⟨List.mem_reverse.mpr member, rfl⟩
  rw [typeOf, found]
  rfl

end parts

/-! ### The flowchart as a whole -/

/-- The flowchart that consistent entries become. -/
def drawing (catalog : Catalog) (nodes : List Node) (edges : List Edge) : Document where
  nodes := .of (nodes.map (Node.drawn catalog))
  connections := .of (edges.zipIdx.map fun (edge, position) => edge.connection catalog nodes position)
  vars := .of []
  comments := .of []
  viewport := .value { zoom := some 1, panX := some 0, panY := some 0 }

section whole

variable {catalog : Catalog} {nodes : List Node} {edges : List Edge} {node : Node}

theorem convert_eq_ok (pins : catalog.PinsNamed) (typed : catalog.Named) {nodeEntries edgeEntries : Json}
    (readNodes : readEntries Node.check nodeEntries = .ok nodes)
    (readEdges : readEntries Edge.check edgeEntries = .ok edges) (consistent : Consistent catalog nodes edges) :
    convert catalog nodeEntries edgeEntries = .ok (drawing catalog nodes edges) := by
  have filled : ∀ id, (∃ node ∈ nodes, node.id = id) → id.isEmpty = false := by
    rintro id ⟨node, member, rfl⟩
    exact consistent.named node member
  have converted : ∀ node ∈ nodes,
      ((convertNode catalog node).toExcept.mapError Error.part) = .ok (node.drawn catalog) := by
    intro node member
    obtain ⟨t, known⟩ := Option.isSome_iff_exists.mp (consistent.known node member)
    have same : t.id = node.type := by simpa using List.find?_some known
    rw [convertNode_eq_ok (consistent.named node member) (same ▸ typed t (List.mem_of_find?_eq_some known))]
    rfl
  have joined : ∀ entry ∈ edges.zipIdx,
      ((convertEdge catalog nodes entry.1 entry.2).toExcept.mapError Error.part) =
        .ok (entry.1.connection catalog nodes entry.2) := by
    intro entry member
    have edge := List.fst_mem_of_mem_zipIdx member
    obtain ⟨target, targetMember, same, -⟩ := consistent.targets entry.1 edge
    rw [convertEdge_eq_ok pins (filled _ (consistent.sources entry.1 edge)) (filled _ ⟨target, targetMember, same⟩)]
    rfl
  refine bind_eq_ok_iff.mpr ⟨nodes, readNodes, bind_eq_ok_iff.mpr ⟨edges, readEdges, ?_⟩⟩
  exact bind_eq_ok_iff.mpr ⟨_, mapM_eq_ok_map converted, bind_eq_ok_iff.mpr ⟨_, mapM_eq_ok_map joined, rfl⟩⟩

/-- The nodes of the flowchart have the pins of their types. -/
theorem hasPin_iff (edges : List Edge) (distinct : (nodes.map Node.id).Nodup) (member : node ∈ nodes)
    {t : NodeType} (known : catalog.find? node.type = some t) {side : Side} {pinId : String} {pin : Pin} :
    (drawing catalog nodes edges).HasPin ⟨node.id, pinId⟩ side pin ↔ pin ∈ t.pins side ∧ pin.id = pinId := by
  constructor
  · rintro ⟨made, there, sameId, has, named⟩
    obtain ⟨other, otherMember, rfl⟩ := List.mem_map.mp there
    cases eq_of_key_eq distinct otherMember member sameId
    exact ⟨Node.drawn_pins known side ▸ has, named⟩
  · rintro ⟨has, named⟩
    exact ⟨node.drawn catalog, List.mem_map_of_mem member, rfl, (Node.drawn_pins known side).symm ▸ has, named⟩

/-- Control passes through the pin that is chosen if nodes of the type carry control at all. -/
theorem executionPin_iff (edges : List Edge) (distinct : (nodes.map Node.id).Nodup) (member : node ∈ nodes)
    (known : (catalog.find? node.type).isSome) (side : Side) :
    (∃ pin, (drawing catalog nodes edges).HasPin
        ⟨node.id, executionPinId catalog (typeOf nodes node.id) side⟩ side pin ∧ pin.kind = .execution) ↔
      catalog.Carries node.type side := by
  obtain ⟨t, known⟩ := Option.isSome_iff_exists.mp known
  simp only [typeOf_eq distinct member, hasPin_iff edges distinct member known]
  constructor
  · rintro ⟨pin, ⟨has, -⟩, kind⟩
    exact ⟨t, known, pin, has, kind⟩
  · rintro ⟨other, again, carries⟩
    cases known.symm.trans again
    obtain ⟨pin, has, kind, chosen⟩ := executionPinId_eq known carries
    exact ⟨pin, ⟨has, chosen.symm⟩, kind⟩

/-- An edge joins pins if control leaves the node that it comes from. -/
theorem joins_iff (consistent : Consistent catalog nodes edges) {edge : Edge} (member : edge ∈ edges)
    (position : Nat) :
    (drawing catalog nodes edges).Joins (edge.connection catalog nodes position) ↔
      ∀ node ∈ nodes, node.id = edge.source → catalog.Carries node.type .output := by
  obtain ⟨source, sourceMember, sourceId⟩ := consistent.sources edge member
  obtain ⟨target, targetMember, targetId, enters⟩ := consistent.targets edge member
  have leaves := executionPin_iff edges consistent.nodeIds sourceMember
    (consistent.known source sourceMember) .output
  have entered := (executionPin_iff edges consistent.nodeIds targetMember
    (consistent.known target targetMember) .input).mpr enters
  have joins : (drawing catalog nodes edges).Joins (edge.connection catalog nodes position) ↔
      catalog.Carries source.type .output := by
    rw [← leaves, sourceId]
    rw [targetId] at entered
    constructor
    · rintro ⟨producer, consumer, produces, -, objection⟩
      exact ⟨producer, produces, (Link.execution_objection?_eq_none_iff.mp objection).1⟩
    · rintro ⟨producer, produces, leaving⟩
      obtain ⟨consumer, consumes, entering⟩ := entered
      exact ⟨producer, consumer, produces, consumes, Link.execution_objection?_eq_none_iff.mpr ⟨leaving, entering⟩⟩
  rw [joins]
  constructor
  · intro carries node nodeMember same
    cases eq_of_key_eq consistent.nodeIds nodeMember sourceMember (same.trans sourceId.symm)
    exact carries
  · intro all
    exact all source sourceMember sourceId

/-- The flowchart is accepted if and only if the ids of its edges stay apart, control leaves every node that an edge
comes from, and the types of its nodes have distinct pins. -/
theorem drawing_wellFormed_iff (consistent : Consistent catalog nodes edges) :
    (drawing catalog nodes edges).WellFormed ↔
      IdsApart edges ∧
      (∀ edge ∈ edges, ∀ node ∈ nodes, node.id = edge.source → catalog.Carries node.type .output) ∧
      ∀ node ∈ nodes, ∀ t, catalog.find? node.type = some t → t.PinsDistinct := by
  have nodeIds : (drawing catalog nodes edges).nodes.items.map Flowchart.Node.id = nodes.map Node.id := by
    simp [drawing, Collection.of, Node.drawn]
  have connectionIds : (drawing catalog nodes edges).connections.items.map Connection.id =
      edges.zipIdx.map fun (edge, position) => edgeId edge position := by
    simp [drawing, Collection.of, Edge.connection]
  have dataTargets : (drawing catalog nodes edges).dataTargets = [] := by
    rw [Document.dataTargets, List.map_eq_nil_iff, List.filter_eq_nil_iff]
    intro c member
    obtain ⟨entry, -, rfl⟩ := List.mem_map.mp member
    exact Bool.noConfusion
  have apart := nodup_edgeIds_iff consistent.edgeIds consistent.edgesNamed
  constructor
  · intro wellFormed
    refine ⟨apart.mp (connectionIds ▸ wellFormed.connectionIds), fun edge member => ?_,
      fun node member t known => ?_⟩
    · obtain ⟨position, found⟩ := List.mem_iff_getElem?.mp member
      have connected : edge.connection catalog nodes position ∈ (drawing catalog nodes edges).connections.items :=
        List.mem_map.mpr ⟨(edge, position), List.mem_zipIdx_iff_getElem?.mpr found, rfl⟩
      exact (joins_iff consistent member position).mp (wellFormed.joins _ connected)
    · exact (Node.drawn_pinsDistinct_iff known).mp (wellFormed.pins _ (List.mem_map_of_mem member))
  · rintro ⟨ids, leaves, templates⟩
    refine ⟨nodeIds ▸ consistent.nodeIds, ?_, connectionIds ▸ apart.mpr ids, ?_, dataTargets ▸ List.nodup_nil, .nil,
      .nil, .nil⟩
    · intro made member
      obtain ⟨node, nodeMember, rfl⟩ := List.mem_map.mp member
      obtain ⟨t, known⟩ := Option.isSome_iff_exists.mp (consistent.known node nodeMember)
      exact (Node.drawn_pinsDistinct_iff known).mpr (templates node nodeMember t known)
    · intro c member
      obtain ⟨⟨edge, position⟩, entry, rfl⟩ := List.mem_map.mp member
      have edgeMember := List.fst_mem_of_mem_zipIdx entry
      exact (joins_iff consistent edgeMember position).mpr (leaves edge edgeMember)

/-- Consistent entries become a flowchart. It is without errors if and only if no edge was given the id that is made
for one without, control leaves every node that an edge comes from, and the types of the nodes have distinct pins. -/
theorem convert_errors_eq_nil_iff (pins : catalog.PinsNamed) (typed : catalog.Named) {nodeEntries edgeEntries : Json}
    (readNodes : readEntries Node.check nodeEntries = .ok nodes)
    (readEdges : readEntries Edge.check edgeEntries = .ok edges) (consistent : Consistent catalog nodes edges) :
    ∃ d, convert catalog nodeEntries edgeEntries = .ok d ∧
      ((validate catalog d).errors = [] ↔
        IdsApart edges ∧
        (∀ edge ∈ edges, ∀ node ∈ nodes, node.id = edge.source → catalog.Carries node.type .output) ∧
        ∀ node ∈ nodes, ∀ t, catalog.find? node.type = some t → t.PinsDistinct) := by
  refine ⟨drawing catalog nodes edges, convert_eq_ok pins typed readNodes readEdges consistent, ?_⟩
  rw [Report.errors_eq_nil_iff, validate_errorFree_iff]
  exact drawing_wellFormed_iff consistent

end whole

/-- A trigger and a delay. -/
def sampleNodes : Json :=
  .array [.object [("id", .string "t"), ("type", .string "trigger")],
    .object [("id", .string "d"), ("type", .string "delay")]]

/-- Two edges from the trigger to the delay. The second one has the id that is made for the first. -/
def sampleEdges : Json :=
  .array [.object [("from", .string "t"), ("to", .string "d")],
    .object [("id", .string "conn-0"), ("from", .string "t"), ("to", .string "d")]]

theorem consistent_sample : Consistent .builtin
    [⟨"t", "trigger", ⟨0, 0, 0⟩, none, []⟩, ⟨"d", "delay", ⟨0, 0, 0⟩, none, []⟩]
    [⟨none, "t", "d"⟩, ⟨some "conn-0", "t", "d"⟩] where
  nodeIds := by decide
  named := by decide
  known := by decide
  edgeIds := by decide
  edgesNamed := by decide
  sources := by decide
  targets := by
    have enters : Catalog.builtin.Carries "delay" .input := ⟨.delay, rfl, executionIn, List.mem_cons_self, rfl⟩
    simp [enters]

theorem convert_errors_eq_nil_iff_sample :
    Catalog.builtin.PinsNamed ∧ Catalog.builtin.Named ∧ ∃ nodes edges,
      readEntries Node.check sampleNodes = .ok nodes ∧ readEntries Edge.check sampleEdges = .ok edges ∧
      Consistent .builtin nodes edges ∧
      ∃ d, convert .builtin sampleNodes sampleEdges = .ok d ∧ (validate .builtin d).errors ≠ [] := by
  have readNodes : readEntries Node.check sampleNodes =
      .ok [⟨"t", "trigger", ⟨0, 0, 0⟩, none, []⟩, ⟨"d", "delay", ⟨0, 0, 0⟩, none, []⟩] := rfl
  have readEdges : readEntries Edge.check sampleEdges = .ok [⟨none, "t", "d"⟩, ⟨some "conn-0", "t", "d"⟩] := rfl
  obtain ⟨d, converted, accepted⟩ :=
    convert_errors_eq_nil_iff builtin_pinsNamed builtin_named readNodes readEdges consistent_sample
  refine ⟨builtin_pinsNamed, builtin_named, _, _, readNodes, readEdges, consistent_sample, d, converted, ?_⟩
  intro none
  exact (accepted.mp none).1 0 _ rfl rfl (by decide)

end Legacy

end Flowchart
