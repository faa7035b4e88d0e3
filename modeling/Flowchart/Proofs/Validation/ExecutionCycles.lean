import Flowchart.Proofs.Graph.Cycles
import Flowchart.Proofs.Validation.Passes

/-!
# Execution cycles

* `Document.ExecutionEdge`: an accepted execution connection leads from one node to another, said of the parts
  of the flowchart.
* `Document.executionGraph_edge`: these are the edges of the graph that a validation searches.
* `validate_executionCycles`: each cycle that is reported is one, and each weakly connected component with a
  cycle has one of them reported.
-/

namespace Flowchart

/-! ### The items that count -/

section firstBy

variable {α : Type} {key : α → String}

/-- Of the items of each key the first is left, except of those seen before. -/
theorem mem_map_firstBy {seen : List String} {items : List α} {k : String} :
    k ∈ (firstBy key seen items).map key ↔ k ∈ items.map key ∧ k ∉ seen := by
  induction items generalizing seen with
  | nil => simp [firstBy]
  | cons a items ih =>
    rw [firstBy]
    by_cases again : key a ∈ seen
    · rw [if_pos (by simpa using again), ih]
      grind
    · rw [if_neg (by simpa using again), List.map_cons, List.mem_cons, ih]
      grind

theorem nodup_map_firstBy (seen : List String) (items : List α) : ((firstBy key seen items).map key).Nodup := by
  induction items generalizing seen with
  | nil => exact .nil
  | cons a items ih =>
    rw [firstBy]
    split
    next => exact ih seen
    next => exact List.nodup_cons.2 ⟨fun again => (mem_map_firstBy.1 again).2 List.mem_cons_self, ih _⟩

end firstBy

/-! ### The graph -/

namespace Document

/-- An execution connection leads from one node to another, and a validation accepts it: it is the first one with
its id, and both its ends resolve to execution pins. -/
def ExecutionEdge (d : Document) (u v : String) : Prop :=
  ∃ before c after, d.connections.items = before ++ c :: after ∧ c.id ∉ before.map Connection.id ∧
    c.Resolves d.distinctNodes ∧ c.link = .execution ∧ c.source.node = u ∧ c.target.node = v

variable {d : Document}

/-- An end that resolves is on one of the nodes. -/
theorem mem_of_resolve_ok {nodes : List Node} {c : Connection} {side : Side} {pin : Pin}
    (resolved : c.resolve nodes side = .ok pin) : (c.endOn side).node ∈ nodes.map Node.id := by
  rw [Connection.resolve] at resolved
  by_contra absent
  simp [find?_key_eq_none_iff _ |>.2 absent] at resolved

theorem executionGraph_vertices (d : Document) : d.executionGraph.vertices = d.distinctNodes.map Node.id := by
  simp [executionGraph, Flowchart.executionGraph, Graph.vertices, Function.comp_def]

theorem mem_vertices_iff {v : String} : v ∈ d.executionGraph.vertices ↔ v ∈ d.nodes.items.map Node.id := by
  rw [executionGraph_vertices, distinctNodes, mem_map_firstBy]
  simp

/-- The edges of the graph are the accepted execution connections. -/
theorem executionGraph_edge (d : Document) : d.executionGraph.Edge = d.ExecutionEdge := by
  funext u v
  apply propext
  have edges : d.executionGraph.Edge u v ↔ u ∈ d.distinctNodes.map Node.id ∧
      ∃ c ∈ d.accepted, c.link = .execution ∧ c.source.node = u ∧ c.target.node = v := by
    rw [Graph.edge_iff]
    simp only [executionGraph, Flowchart.executionGraph, List.mem_map, Prod.mk.injEq]
    constructor
    · rintro ⟨targets, ⟨node, member, rfl, rfl⟩, found⟩
      simp only [List.mem_eraseDups, List.mem_map, List.mem_filter, Bool.and_eq_true, beq_iff_eq] at found
      obtain ⟨c, ⟨accepted, link, source⟩, target⟩ := found
      exact ⟨⟨node, member, rfl⟩, c, accepted, link, source, target⟩
    · rintro ⟨⟨node, member, rfl⟩, c, accepted, link, source, target⟩
      refine ⟨_, ⟨node, member, rfl, rfl⟩, ?_⟩
      simp only [List.mem_eraseDups, List.mem_map, List.mem_filter, Bool.and_eq_true, beq_iff_eq]
      exact ⟨c, ⟨accepted, link, source⟩, target⟩
  rw [edges]
  constructor
  · rintro ⟨-, c, accepted, link, source, target⟩
    obtain ⟨resolves, -, before, after, split, fresh⟩ := (mem_accepted_iff link).1 accepted
    exact ⟨before, c, after, split, fresh, resolves, link, source, target⟩
  · rintro ⟨before, c, after, split, fresh, resolves, link, rfl, target⟩
    have accepted : c ∈ d.accepted :=
      (mem_accepted_iff link).2 ⟨resolves, List.not_mem_nil, before, after, split, fresh⟩
    obtain ⟨_, _, source, -⟩ := resolves
    exact ⟨mem_of_resolve_ok source, c, accepted, link, rfl, target⟩

theorem executionGraph_proper (d : Document) : d.executionGraph.Proper where
  distinct := by
    rw [executionGraph_vertices]
    exact nodup_map_firstBy _ _
  within u v edge := by
    rw [executionGraph_edge] at edge
    obtain ⟨_, c, _, -, -, ⟨_, _, -, target, -⟩, -, -, rfl⟩ := edge
    rw [executionGraph_vertices]
    exact mem_of_resolve_ok target

end Document

/-! ### The findings -/

theorem Finding.code_eq_execution_cycle {f : Finding} : f.code = "execution_cycle" ↔ f.pass = .cycles := by
  cases f <;> simp [code, pass]

theorem mem_cycleFindings_iff {g : Graph} {f : Finding} :
    f ∈ cycleFindings g ↔ ∃ first others, first :: others ∈ g.cycles ∧ f = .cycle first others := by
  rw [cycleFindings, List.mem_filterMap]
  constructor
  · rintro ⟨cycle, member, found⟩
    cases cycle with
    | nil => cases found
    | cons first others =>
      cases found
      exact ⟨first, others, member, rfl⟩
  · rintro ⟨first, others, member, rfl⟩
    exact ⟨_, member, rfl⟩

open Classical in
/-- The pass over execution cycles ends; what it reports are cycles of accepted execution connections, each with
its first node; and of the nodes that are weakly connected with a node, one has a cycle reported if one of them
lies on a cycle, and otherwise none. -/
theorem validate_executionCycles (catalog : Catalog) (d : Document) :
    d.executionGraph.LoopsEnd ∧
    (∀ f ∈ (validate catalog d).findings, f.code = "execution_cycle" →
      ∃ first others, f.nodeId? = some first ∧ f.related = first :: others ∧
        IsCycle d.ExecutionEdge first others ∧ f.related ⊆ d.nodes.items.map Node.id) ∧
    ∀ v ∈ d.nodes.items.map Node.id,
      ((validate catalog d).findings.countP fun f =>
          f.code = "execution_cycle" ∧ ∃ first ∈ f.nodeId?, Relation.EqvGen d.ExecutionEdge v first) =
        if ∃ u, Relation.EqvGen d.ExecutionEdge v u ∧ Relation.TransGen d.ExecutionEdge u u then 1 else 0 := by
  have proper := d.executionGraph_proper
  refine ⟨proper.loopsEnd, fun f member code => ?_, fun v _ => ?_⟩
  · have pass := Finding.code_eq_execution_cycle.1 code
    have found : f ∈ d.found catalog .cycles := pass ▸ mem_found_iff.2 member
    obtain ⟨first, others, listed, rfl⟩ := mem_cycleFindings_iff.1 found
    obtain ⟨_, _, same, cycle, known⟩ := proper.isCycle_of_mem listed
    obtain ⟨rfl, rfl⟩ := List.cons.inj same
    rw [d.executionGraph_edge] at cycle
    exact ⟨first, others, rfl, rfl, cycle, fun v onCycle => Document.mem_vertices_iff.1 (known onCycle)⟩
  · have count := proper.countP_cycles v
    simp only [Graph.Joined, d.executionGraph_edge] at count
    rw [← count]
    -- only the pass over cycles has such findings, and it has one for each cycle
    have picked : (validate catalog d).findings.countP (fun f =>
        f.code = "execution_cycle" ∧ ∃ first ∈ f.nodeId?, Relation.EqvGen d.ExecutionEdge v first) =
        (d.found catalog .cycles).countP fun f => ∃ first ∈ f.nodeId?, Relation.EqvGen d.ExecutionEdge v first := by
      rw [← validate_filter_pass, List.countP_filter]
      refine List.countP_congr fun f _ => ?_
      simp [Finding.code_eq_execution_cycle, and_comm]
    rw [picked, Document.found, cycleFindings, List.countP_filterMap]
    refine List.countP_congr fun cycle _ => ?_
    cases cycle with
    | nil => simp
    | cons first others => simp [Finding.nodeId?]

end Flowchart
