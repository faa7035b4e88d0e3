import Flowchart.Proofs.Graph.Reachability
import Flowchart.Proofs.Validation.ExecutionCycles

/-!
# Nodes that no entry leads to

* `Document.waiting`, `Document.entryIds`: the ids of the nodes that wait for control, and of those that begin with it.
* `Document.Reached`: accepted execution connections lead from an entry to a node.
* `validate_reachability`: what a validation reports on them.

Where an id is given to several nodes, the first of them stands for it.
-/

namespace Flowchart

section firstBy

variable {α : Type} {key : α → String}

/-- The first items of their keys have each key once, in the order of the keys. -/
theorem map_firstBy (seen : List String) (items : List α) :
    (firstBy key seen items).map key = ((items.map key).filter fun k => k ∉ seen).eraseDups := by
  induction items generalizing seen with
  | nil => rfl
  | cons a items ih =>
    rw [firstBy, List.map_cons]
    by_cases again : key a ∈ seen
    · rw [if_pos (by simpa using again), ih, List.filter_cons_of_neg (by simpa using again)]
    · rw [if_neg (by simpa using again), List.map_cons, ih, List.filter_cons_of_pos (by simpa using again),
        List.eraseDups_cons, List.filter_filter]
      refine congrArg (fun keys => key a :: keys.eraseDups) (List.filter_congr fun k _ => ?_)
      by_cases same : k = key a <;> simp [same]

/-- Each of the items that are left is the first one with its key. -/
theorem find?_of_mem_firstBy {seen : List String} {items : List α} {a : α} (member : a ∈ firstBy key seen items) :
    (items.find? fun b => key b == key a) = some a := by
  induction items generalizing seen with
  | nil => cases member
  | cons b items ih =>
    have fresh : key a ∉ seen := (mem_map_firstBy.1 (List.mem_map_of_mem member)).2
    rw [firstBy] at member
    split at member
    next again =>
      have other : key b ≠ key a := fun same => fresh (same ▸ List.contains_iff_mem.1 again)
      rw [List.find?_cons_of_neg (by simpa using other), ih member]
    next =>
      obtain rfl | later := List.mem_cons.1 member
      · exact List.find?_cons_of_pos (beq_self_eq_true _)
      · have other : key b ≠ key a := fun same =>
          (mem_map_firstBy.1 (List.mem_map_of_mem later)).2 (same ▸ List.mem_cons_self)
        rw [List.find?_cons_of_neg (by simpa using other), ih later]

end firstBy

namespace Document

variable {d : Document}

/-- The ids whose node has a property, each one once and in the order of the flowchart. -/
def idsWhere (d : Document) (holds : Node → Bool) : List String :=
  (d.nodes.items.map Node.id).eraseDups.filter fun id => (d.node? id).any holds

/-- The nodes with an execution input: they wait for control to come. -/
def waiting (d : Document) : List String := d.idsWhere fun node => node.hasExecution .input

/-- The nodes with an execution output and no execution input: control begins there. -/
def entryIds (d : Document) : List String :=
  d.idsWhere fun node => !node.hasExecution .input && node.hasExecution .output

/-- Accepted execution connections lead from an entry to a node, or it is an entry itself. -/
def Reached (d : Document) (v : String) : Prop := ∃ u ∈ d.entryIds, Relation.ReflTransGen d.ExecutionEdge u v

theorem map_filter_distinctNodes (d : Document) (holds : Node → Bool) :
    (d.distinctNodes.filter holds).map Node.id = d.idsWhere holds := by
  have ids : d.distinctNodes.map Node.id = (d.nodes.items.map Node.id).eraseDups := by
    rw [distinctNodes, map_firstBy, List.filter_eq_self.2 (by simp)]
  have own : d.distinctNodes.filter holds =
      d.distinctNodes.filter ((fun id => (d.node? id).any holds) ∘ Node.id) := by
    refine List.filter_congr fun node member => ?_
    have found : d.node? node.id = some node := find?_of_mem_firstBy member
    simp [found]
  rw [own, ← List.filter_map, ids, idsWhere]

theorem nodup_idsWhere (d : Document) (holds : Node → Bool) : (d.idsWhere holds).Nodup := by
  rw [← map_filter_distinctNodes]
  exact (nodup_map_firstBy [] d.nodes.items).sublist (List.filter_sublist.map Node.id)

/-- The search that a validation makes finds the nodes that are reached. -/
theorem mem_reachable_iff {v : String} : v ∈ d.executionGraph.reachable d.entryIds ↔ d.Reached v := by
  rw [d.executionGraph_proper.mem_reachable_iff, d.executionGraph_edge, Reached]

open Classical in
/-- What the pass over reachability finds. -/
theorem found_reachability (catalog : Catalog) (d : Document) :
    d.found catalog .reachability =
      if d.waiting = [] then []
      else if d.entryIds = [] then [.noEntry]
      else (d.waiting.filter fun v => ¬d.Reached v).map .unreachable := by
  have isEmpty_iff (holds : Node → Bool) : (d.distinctNodes.filter holds).isEmpty = true ↔ d.idsWhere holds = [] := by
    rw [List.isEmpty_iff, ← map_filter_distinctNodes, List.map_eq_nil_iff]
  have entryIds_eq : (d.distinctNodes.filter fun node => !node.hasExecution .input && node.hasExecution .output).map
      Node.id = d.entryIds := d.map_filter_distinctNodes _
  have waiting_eq : d.waiting = (d.distinctNodes.filter fun node => node.hasExecution .input).map Node.id :=
    (d.map_filter_distinctNodes _).symm
  rw [found, reachabilityFindings]
  dsimp only
  by_cases idle : d.waiting = []
  · rw [if_pos ((isEmpty_iff _).2 idle), if_pos idle]
  rw [if_neg (mt (isEmpty_iff _).1 idle), if_neg idle]
  by_cases closed : d.entryIds = []
  · rw [if_pos ((isEmpty_iff _).2 closed), if_pos closed]
  rw [if_neg (mt (isEmpty_iff _).1 closed), if_neg closed]
  rw [waiting_eq, entryIds_eq, List.filter_map, List.map_map]
  refine congrArg (List.map _) (List.filter_congr fun node _ => ?_)
  simp [← mem_reachable_iff]

end Document

theorem Finding.pass_eq_reachability {f : Finding} :
    f.pass = .reachability ↔ f.code = "no_entry_node" ∨ f.code = "unreachable_node" := by
  cases f <;> simp [code, pass]

open Classical in
/-- The pass over reachability ends. It reports nothing if no node waits for control; that there is no entry, if
nodes wait but control begins at none; and otherwise each node that waits and is not reached, once and in the order
of the flowchart. -/
theorem validate_reachability (catalog : Catalog) (d : Document) :
    d.executionGraph.WorksOff d.entryIds [] (d.executionGraph.reachable d.entryIds) ∧
    ((validate catalog d).findings.filter fun f => f.code = "no_entry_node" ∨ f.code = "unreachable_node") =
      (if d.waiting = [] then []
        else if d.entryIds = [] then [.noEntry]
        else (d.waiting.filter fun v => ¬d.Reached v).map .unreachable) ∧
    d.waiting.Nodup := by
  refine ⟨d.executionGraph_proper.worksOff _, ?_, d.nodup_idsWhere _⟩
  rw [← d.found_reachability catalog, ← validate_filter_pass]
  refine List.filter_congr fun f _ => ?_
  rw [beq_eq_decide]
  exact decide_eq_decide.2 Finding.pass_eq_reachability.symm

end Flowchart
