import Flowchart.Proofs.Edit.BatchRun

/-!
# Removing a node with its connections

* `withoutLast`: a list of connections without the last one with each of some ids.
* `applyAll_removeConnections`: removing connections by their ids takes away the last one with each id.
* `withoutLast_eq_filter_iff`: when these are the connections that the ids were taken from.
* `applyAll_expand_removeNode`: what the removal of a node comes to, step by step.

The steps are read off the connections at the node, but each of them names its connection by id only. Among
connections that share an id it is the last one that goes.
-/

namespace Flowchart

/-- The connections without the last one with each of the ids; an id that is named again calls for one more. -/
def withoutLast (ids : List String) : List Connection → List Connection
  | [] => []
  | c :: rest =>
    if (rest.map Connection.id).count c.id < ids.count c.id then withoutLast ids rest
    else c :: withoutLast ids rest

section withoutLast

variable {connections : List Connection} {ids : List String} {id : String}

theorem withoutLast_nil (connections : List Connection) : withoutLast [] connections = connections := by
  induction connections with
  | nil => rfl
  | cons c rest ih => simp [withoutLast, ih]

theorem count_withoutLast (ids : List String) (connections : List Connection) (id : String) :
    ((withoutLast ids connections).map Connection.id).count id =
      (connections.map Connection.id).count id - ids.count id := by
  induction connections with
  | nil => simp [withoutLast]
  | cons c rest ih =>
    rw [withoutLast, List.map_cons, List.count_cons]
    by_cases same : c.id = id
    · subst same
      split
      next goes => rw [ih, beq_self_eq_true, if_pos rfl]; omega
      next stays => rw [List.map_cons, List.count_cons_self, ih, beq_self_eq_true, if_pos rfl]; omega
    · split
      next => simp [ih, same]
      next => simp [ih, same]

/-- The ids may be gone through one after the other. -/
theorem withoutLast_cons (id : String) (ids : List String) (connections : List Connection) :
    withoutLast (id :: ids) connections = withoutLast ids (withoutLast [id] connections) := by
  induction connections with
  | nil => rfl
  | cons c rest ih =>
    have both : (id :: ids).count c.id = ids.count c.id + [id].count c.id := by
      simp [List.count_cons]
    have left := count_withoutLast [id] rest c.id
    rw [withoutLast, withoutLast, both]
    by_cases goes : (rest.map Connection.id).count c.id < [id].count c.id
    · rw [if_pos goes, if_pos (by omega), ih]
    · rw [if_neg goes, withoutLast, left, ih]
      split
      next first => rw [if_pos (by omega)]
      next first => rw [if_neg (by omega)]

/-- Ids that do not occur call for nothing. -/
theorem withoutLast_of_not_mem (absent : ∀ c ∈ connections, c.id ∉ ids) :
    withoutLast ids connections = connections := by
  induction connections with
  | nil => rfl
  | cons c rest ih =>
    obtain ⟨here, later⟩ := List.forall_mem_cons.mp absent
    rw [withoutLast, List.count_eq_zero.mpr here, if_neg (Nat.not_lt_zero _), ih later]

/-- Erasing the last position of an id. -/
theorem eraseIdx_eq_withoutLast {position : Nat}
    (present : (connections.map Connection.id)[position]? = some id)
    (last : ∀ later, position < later → (connections.map Connection.id)[later]? ≠ some id) :
    connections.eraseIdx position = withoutLast [id] connections := by
  induction connections generalizing position with
  | nil => cases present
  | cons c rest ih =>
    rw [withoutLast]
    cases position with
    | zero =>
      have same : c.id = id := by simpa using present
      have absent : ∀ other ∈ rest, other.id ∉ [id] := by
        intro other member
        obtain ⟨later, found⟩ := List.mem_iff_getElem?.mp (List.mem_map_of_mem (f := Connection.id) member)
        rw [List.mem_singleton]
        rintro same
        exact last (later + 1) (Nat.succ_pos later) (by simpa [same] using found)
      have none_left : (rest.map Connection.id).count id = 0 := by
        rw [List.count_eq_zero]
        intro member
        obtain ⟨other, member, again⟩ := List.mem_map.mp member
        exact absent other member (List.mem_singleton.mpr again)
      rw [same, none_left, List.count_singleton_self, if_pos Nat.one_pos, withoutLast_of_not_mem absent,
        List.eraseIdx_cons_zero]
    | succ position =>
      have present : (rest.map Connection.id)[position]? = some id := by simpa using present
      have stays : ¬(rest.map Connection.id).count c.id < [id].count c.id := by
        by_cases same : id = c.id
        · subst same
          have one := List.count_pos_iff.mpr (List.mem_of_getElem? present)
          rw [List.count_singleton_self]
          omega
        · simp [same]
      rw [if_neg stays, List.eraseIdx_cons_succ,
        ih present fun later past => by simpa using last (later + 1) (Nat.succ_lt_succ past)]

/-- Only as many ids count as there are connections with them. -/
theorem withoutLast_congr {others : List String}
    (alike : ∀ id, min (ids.count id) ((connections.map Connection.id).count id) =
      min (others.count id) ((connections.map Connection.id).count id)) :
    withoutLast ids connections = withoutLast others connections := by
  induction connections with
  | nil => rfl
  | cons c rest ih =>
    simp only [List.map_cons, List.count_cons, beq_iff_eq] at alike
    have later := ih fun id => by have := alike id; split at this <;> omega
    have here := alike c.id
    rw [if_pos rfl] at here
    rw [withoutLast, withoutLast, later]
    split
    next goes => rw [if_pos (by omega)]
    next stays => rw [if_neg (by omega)]

/-- The ids of some of the connections count fewer than those of all, if not all with the id are among them. -/
theorem count_filter_eq_iff (p : Connection → Bool) (connections : List Connection) (id : String) :
    ((connections.filter p).map Connection.id).count id = (connections.map Connection.id).count id ↔
      ∀ c ∈ connections, c.id = id → p c := by
  have parts := List.countP_eq_countP_filter_add connections (fun c => c.id == id) p
  simp only [List.count_eq_countP, List.countP_map, Function.comp_def]
  rw [parts, eq_comm, Nat.add_eq_left, List.countP_eq_zero]
  simp only [List.mem_filter, beq_iff_eq, and_imp, Bool.not_eq_true']
  exact forall₂_congr fun c _ => by cases p c <;> simp

/-- What is taken away are the connections that the ids were taken from, if and only if of the connections
with an id these are the last ones. -/
theorem withoutLast_eq_filter_iff (p : Connection → Bool) (connections : List Connection) :
    withoutLast ((connections.filter p).map Connection.id) connections = connections.filter (fun c => !p c) ↔
      connections.Pairwise fun c later => c.id = later.id → p c → p later := by
  induction connections with
  | nil => simp [withoutLast]
  | cons c rest ih =>
    have bound : ((rest.filter p).map Connection.id).count c.id ≤ (rest.map Connection.id).count c.id :=
      (List.filter_sublist.map Connection.id).count_le c.id
    have all := count_filter_eq_iff p rest c.id
    rw [List.pairwise_cons, withoutLast]
    cases chosen : p c with
    | false =>
      have stays : ¬(rest.map Connection.id).count c.id < ((rest.filter p).map Connection.id).count c.id := by omega
      simp [chosen, stays, ih]
    | true =>
      simp only [List.filter_cons, chosen, if_true, List.map_cons, List.count_cons_self, Bool.not_true,
        Bool.false_eq_true, if_false, forall_const]
      by_cases last : ∀ later ∈ rest, later.id = c.id → p later
      · have goes := all.mpr last
        have fewer : withoutLast (c.id :: (rest.filter p).map Connection.id) rest =
            withoutLast ((rest.filter p).map Connection.id) rest := by
          refine withoutLast_congr fun id => ?_
          rw [List.count_cons]
          split
          next same => rw [← beq_iff_eq.mp same]; omega
          next => rfl
        rw [if_pos (by omega), fewer, ih]
        exact ⟨fun later => ⟨fun other member same => last other member same.symm, later⟩, And.right⟩
      -- an earlier connection is kept for one with its id that was not meant, and should have gone itself
      · have stays : ¬(rest.map Connection.id).count c.id < ((rest.filter p).map Connection.id).count c.id + 1 := by
          have := mt all.mp last
          omega
        rw [if_neg stays]
        constructor
        · intro same
          have member : c ∈ rest.filter fun c => !p c := same ▸ List.mem_cons_self
          simp [chosen] at member
        · rintro ⟨later, -⟩
          exact absurd (fun other member same => later other member same.symm) last

end withoutLast

/-- Removing a connection takes away the last one with the id. -/
theorem Editor.removeConnection_of_mem {d : Document} {id : String}
    (member : id ∈ d.connections.items.map Connection.id) :
    (Editor.ofDocument d).removeConnection id =
      .ok (.ofDocument { d with connections := d.connections.edit (withoutLast [id]) }) := by
  obtain ⟨position, present, last⟩ := Positions.exists_last member
  have located := (Editor.indexed_ofDocument d).locateConnection_of_last present last
  rw [Editor.removeConnection, located]
  simp only [Editor.ofDocument, Collection.edit, ← eraseIdx_eq_withoutLast present last]
  rfl

/-- Removing a node takes away all nodes with the id. -/
theorem Editor.removeNode_of_mem {d : Document} {id : String} (member : id ∈ d.nodes.items.map Node.id) :
    (Editor.ofDocument d).removeNode id =
      .ok (.ofDocument { d with nodes := .of (d.nodes.items.filter fun node => node.id != id) }) := by
  obtain ⟨found, located⟩ := Editor.locate_of_mem (Editor.indexed_ofDocument d) member
  rw [Editor.removeNode, located]
  rfl

/-- Connections are removed one after the other as long as there are some with the ids. -/
theorem applyAll_removeConnections (catalog : Catalog) (d : Document) (ids : List String) (rest : List Operation)
    (enough : ∀ id, ids.count id ≤ (d.connections.items.map Connection.id).count id) :
    applyAll catalog (.ofDocument d) (ids.map .removeConnection ++ rest) =
      (applyAll catalog (.ofDocument { d with connections := d.connections.edit (withoutLast ids) }) rest).map
        fun (e, applied) => (e, ids.map .removeConnection ++ applied) := by
  induction ids generalizing d with
  | nil =>
    simp only [Collection.edit, withoutLast_nil, List.map_nil, List.nil_append]
    exact (congrFun Except.map_id _).symm
  | cons id ids ih =>
    have member : id ∈ d.connections.items.map Connection.id := by
      have one := enough id
      rw [List.count_cons_self] at one
      exact List.count_pos_iff.mp (Nat.zero_lt_of_lt one)
    have left : ∀ other, ids.count other ≤
        ((withoutLast [id] d.connections.items).map Connection.id).count other := by
      intro other
      have bound := enough other
      rw [List.count_cons] at bound
      rw [count_withoutLast, List.count_singleton]
      exact Nat.le_sub_of_add_le bound
    have applied : (Operation.removeConnection id).applyTo catalog (.ofDocument d) =
        .ok (.ofDocument { d with connections := d.connections.edit (withoutLast [id]) }, .removeConnection id) := by
      simp only [Operation.applyTo, Editor.removeConnection_of_mem member]
      rfl
    have later := ih { d with connections := d.connections.edit (withoutLast [id]) } left
    have both : d.connections.edit (withoutLast (id :: ids)) =
        (d.connections.edit (withoutLast [id])).edit (withoutLast ids) := by
      simp only [Collection.edit, withoutLast_cons id ids]
    rw [both, List.map_cons, List.cons_append, applyAll, applied]
    change (applyAll catalog _ (ids.map .removeConnection ++ rest) >>= fun (e, others) =>
      pure (e, Operation.removeConnection id :: others)) = _
    rw [later]
    cases applyAll catalog _ rest <;> rfl

/-- The removal of a node with a cascade of connections succeeds. All nodes with the id go, and for each
connection at the node the last one with its id. These are the connections at the node if and only if no
connection at the node comes before one with the same id that is not. -/
theorem applyAll_expand_removeNode (catalog : Catalog) (d : Document) {node : String}
    (present : node ∈ d.nodes.items.map Node.id) :
    ∃ e, applyAll catalog (.ofDocument d) ((Operation.removeNode node).expand (.ofDocument d)) =
        .ok (e, (Operation.removeNode node).expand (.ofDocument d)) ∧
      e.document = { d with
        nodes := .of (d.nodes.items.filter fun n => n.id != node)
        connections := d.connections.edit (withoutLast ((d.incident node).map Connection.id)) } ∧
      (e.document.connections.items = d.connections.items.filter (fun c => !c.touches node) ↔
        d.connections.items.Pairwise fun c later => c.id = later.id → c.touches node → later.touches node) := by
  have known : (Editor.ofDocument d).hasNode node = true :=
    ((Editor.indexed_ofDocument d).hasNode_iff node).mpr present
  have steps : (Operation.removeNode node).expand (.ofDocument d) =
      ((d.incident node).map Connection.id).map .removeConnection ++ [.removeNode node] := by
    simp only [Operation.expand, known, if_true, List.map_map]
    rfl
  have enough : ∀ id, ((d.incident node).map Connection.id).count id ≤
      (d.connections.items.map Connection.id).count id := fun id =>
    (List.filter_sublist.map Connection.id).count_le id
  have exact := withoutLast_eq_filter_iff (fun c => c.touches node) d.connections.items
  -- the connections are gone before the node, and the nodes are still there when its turn comes
  let between := { d with connections := d.connections.edit (withoutLast ((d.incident node).map Connection.id)) }
  have last := Editor.removeNode_of_mem (show node ∈ between.nodes.items.map Node.id from present)
  rw [steps, applyAll_removeConnections catalog d _ _ enough, applyAll, Operation.applyTo, last]
  exact ⟨_, rfl, rfl, exact⟩

/-- A trigger that starts one of two delays, of which the first starts the second. Both connections have the
same id. -/
def sharedId : Document :=
  { nodes := .of [NodeType.trigger.create "n" ⟨0, 0⟩ none [], NodeType.delay.create "a" ⟨0, 0⟩ none [],
      NodeType.delay.create "b" ⟨0, 0⟩ none []]
    connections := .of [⟨"c", ⟨"n", "exec-out"⟩, ⟨"a", "exec-in"⟩, .execution⟩,
      ⟨"c", ⟨"a", "exec-out"⟩, ⟨"b", "exec-in"⟩, .execution⟩] }

/-- The connection between the delays goes, and the one at the trigger stays without it. -/
theorem applyAll_expand_removeNode_sharedId :
    "n" ∈ sharedId.nodes.items.map Node.id ∧
      ∃ e, applyAll .builtin (.ofDocument sharedId) ((Operation.removeNode "n").expand (.ofDocument sharedId)) =
          .ok (e, [.removeConnection "c", .removeNode "n"]) ∧
        e.document.nodes.items.map Node.id = ["a", "b"] ∧
        e.document.connections.items = [⟨"c", ⟨"n", "exec-out"⟩, ⟨"a", "exec-in"⟩, .execution⟩] ∧
        e.document.connections.items ≠ sharedId.connections.items.filter fun c => !c.touches "n" := by
  have present : "n" ∈ sharedId.nodes.items.map Node.id := by decide
  obtain ⟨e, applied, document, exact⟩ := applyAll_expand_removeNode .builtin sharedId present
  refine ⟨present, e, applied, ?_, ?_, mt exact.mp ?_⟩
  · rw [document]; decide
  · rw [document]; decide
  · decide

end Flowchart
