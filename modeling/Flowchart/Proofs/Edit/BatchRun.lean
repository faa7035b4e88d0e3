import Mathlib.Logic.Relation
import Flowchart.Catalog.Builtin
import Flowchart.Proofs.Edit.Preservation

/-!
# The steps of a batch

* `BatchState.Step`: a batch expands an operation when its turn comes and applies what it stands for one
  by one. `BatchState.reaches_of_applyExpanded`: these steps reach what applying the batch at once ends with.
* `BatchState.Safe`: the invariant of a batch on a flowchart without errors. Of a removal, what is still to
  be applied are exactly the connections that the working copy still has at the node, and the node.
* `applyBatch_commits`: a batch on a flowchart without errors is committed or fails, and every working copy
  on the way is without errors.
-/

namespace Flowchart

/-- A batch under way: the working copy, the operations that the current one stands for and that are
still to be applied, and the operations after it. -/
structure BatchState where
  editor : Editor
  expanded : List Operation
  waiting : List Operation

namespace BatchState

/-- A batch on a flowchart, before its first step. -/
def initial (d : Document) (operations : List Operation) : BatchState :=
  ⟨.ofDocument d, [], operations⟩

/-- A batch expands an operation when its turn comes, and applies what it stands for one by one. -/
inductive Step (catalog : Catalog) : BatchState → BatchState → Prop
  | expand {e operation waiting} :
      Step catalog ⟨e, [], operation :: waiting⟩ ⟨e, operation.expand e, waiting⟩
  | apply {e after operation recorded expanded waiting}
      (applied : operation.applyTo catalog e = .ok (after, recorded)) :
      Step catalog ⟨e, operation :: expanded, waiting⟩ ⟨after, expanded, waiting⟩

/-- The states that a batch passes through. -/
abbrev Reaches (catalog : Catalog) : BatchState → BatchState → Prop :=
  Relation.ReflTransGen (Step catalog)

theorem Step.indexed {catalog : Catalog} {s t : BatchState} (step : Step catalog s t)
    (indexed : s.editor.Indexed) : t.editor.Indexed := by
  cases step with
  | expand => exact indexed
  | apply applied => exact (Operation.effect_of_applyTo indexed applied).2

theorem Reaches.indexed {catalog : Catalog} {s t : BatchState} (reaches : Reaches catalog s t)
    (indexed : s.editor.Indexed) : t.editor.Indexed := by
  induction reaches with
  | refl => exact indexed
  | tail _ step ih => exact step.indexed ih

/-- The removal of a node and of the connections that a flowchart still has at it. -/
def removal (d : Document) (node : String) : List Operation :=
  (d.incident node).map (fun c => .removeConnection c.id) ++ [.removeNode node]

/-- What may stand between two steps of a batch. Operations to be applied are the rest of a removal, or
one operation that is none. -/
structure Safe (s : BatchState) : Prop where
  indexed : s.editor.Indexed
  wellFormed : s.editor.document.WellFormed
  waiting : ∀ operation ∈ s.waiting, operation.PinsDistinct
  expanded : s.expanded = [] ∨ (∃ node, s.expanded = removal s.editor.document node) ∨
    ∃ operation, s.expanded = [operation] ∧ operation.PinsDistinct ∧
      ∀ node, operation ≠ .removeNode node

theorem incident_eq_nil {d : Document} (wellFormed : d.WellFormed) {node : String}
    (absent : node ∉ d.nodes.items.map Node.id) : d.incident node = [] := by
  refine List.filter_eq_nil_iff.mpr fun c member touches => absent ?_
  -- a connection that touched the absent node would have an end that names no node
  obtain ⟨source, target, ⟨producer, producerMember, sourceId, -⟩,
    ⟨consumer, consumerMember, targetId, -⟩, -⟩ := wellFormed.joins c member
  simp only [Connection.touches, Bool.or_eq_true, beq_iff_eq] at touches
  rcases touches with same | same
  · exact List.mem_map.mpr ⟨producer, producerMember, sourceId.trans same⟩
  · exact List.mem_map.mpr ⟨consumer, consumerMember, targetId.trans same⟩

/-- An operation that removes no node stands for itself. -/
theorem expand_other {operation : Operation} (keeps : ∀ node, operation ≠ .removeNode node)
    (e : Editor) : operation.expand e = [operation] := by
  unfold Operation.expand
  split
  next node => exact absurd rfl (keeps node)
  next => rfl

/-- On a well-formed flowchart a removal stands for the connections at its node and the node. -/
theorem expand_removeNode {e : Editor} (indexed : e.Indexed) (wellFormed : e.document.WellFormed)
    (node : String) : (Operation.removeNode node).expand e = removal e.document node := by
  unfold Operation.expand removal
  dsimp only
  split
  next known => rfl
  next unknown =>
    rw [indexed.hasNode_iff] at unknown
    rw [incident_eq_nil wellFormed unknown]
    rfl

/-- Taking the connection with an id away leaves the others, in their order. -/
theorem eraseIdx_eq_filter {connections : List Connection} {position : Nat} {c : Connection}
    (distinct : (connections.map Connection.id).Nodup) (present : connections[position]? = some c) :
    connections.eraseIdx position = connections.filter fun other => other.id != c.id := by
  induction connections generalizing position with
  | nil => cases present
  | cons first connections ih =>
    obtain ⟨fresh, distinct⟩ := List.nodup_cons.mp distinct
    cases position with
    | zero =>
      cases present
      have others : ∀ other ∈ connections, (other.id != c.id) = true := fun other member => by
        simpa using fun same => fresh (List.mem_map.mpr ⟨other, member, same⟩)
      simp [List.filter_eq_self.mpr others]
    | succ position =>
      have apart : first.id ≠ c.id := fun same =>
        fresh (List.mem_map.mpr ⟨c, List.mem_of_getElem? present, same.symm⟩)
      simp [apart, ih distinct present]

/-- After the first connection at a node is taken away, the rest of the removal is left. -/
theorem removal_tail {d : Document} (ids : (d.connections.items.map Connection.id).Nodup)
    {node : String} {c first : Connection} {rest : List Connection} {position : Nat}
    (incident : d.incident node = first :: rest)
    (present : d.connections.items[position]? = some c) (same : c.id = first.id) :
    Document.incident { d with
      connections := d.connections.edit fun cs => cs.eraseIdx position } node = rest := by
  have distinct := ids.sublist
    ((incident ▸ List.filter_sublist : (first :: rest).Sublist _).map Connection.id)
  have others : ∀ other ∈ rest, (other.id != first.id) = true := fun other member => by
    simpa using fun again => (List.nodup_cons.mp distinct).1 (List.mem_map.mpr ⟨other, member, again⟩)
  have swap : ((d.connections.items.filter fun other => other.id != first.id).filter
      fun other => other.touches node) = (d.incident node).filter fun other => other.id != first.id := by
    simp only [Document.incident, List.filter_filter, Bool.and_comm]
  rw [Document.incident, Collection.edit, eraseIdx_eq_filter ids present, same,
    swap, incident]
  simp [List.filter_eq_self.mpr others]

/-- What an operation stands for may be applied to the working copy that it is expanded on. -/
theorem Safe.expand {e : Editor} {operation : Operation} {waiting : List Operation}
    (safe : Safe ⟨e, [], operation :: waiting⟩) : Safe ⟨e, operation.expand e, waiting⟩ where
  indexed := safe.indexed
  wellFormed := safe.wellFormed
  waiting other member := safe.waiting other (List.mem_cons_of_mem operation member)
  expanded := by
    by_cases removes : ∃ node, operation = .removeNode node
    · obtain ⟨node, rfl⟩ := removes
      exact .inr (.inl ⟨node, expand_removeNode safe.indexed safe.wellFormed node⟩)
    · have keeps : ∀ node, operation ≠ .removeNode node := not_exists.mp removes
      exact .inr (.inr ⟨operation, expand_other keeps e, safe.waiting operation List.mem_cons_self,
        keeps⟩)

/-- An operation that is applied leaves a working copy that is well formed again. -/
theorem Safe.apply {catalog : Catalog} (templates : catalog.PinsDistinct) {e after : Editor}
    {operation recorded : Operation} {expanded waiting : List Operation}
    (applied : operation.applyTo catalog e = .ok (after, recorded))
    (safe : Safe ⟨e, operation :: expanded, waiting⟩) : Safe ⟨after, expanded, waiting⟩ := by
  obtain ⟨effect, indexed⟩ := Operation.effect_of_applyTo safe.indexed applied
  rcases safe.expanded with none | ⟨node, removal⟩ | ⟨only, alone, pins, keeps⟩
  · cases none
  · cases incident : e.document.incident node with
    | nil =>
      -- the node has no connections left and goes itself
      simp only [BatchState.removal, incident, List.map_nil, List.nil_append, List.cons.injEq]
        at removal
      obtain ⟨rfl, rfl⟩ := removal
      refine ⟨indexed, effect.wellFormed templates safe.wellFormed ?_ ?_, safe.waiting, .inl rfl⟩
      · intro a node same
        cases same
      · intro id same
        cases same
        exact incident
    | cons first rest =>
      -- a connection goes, and what is left is the removal of the node on the new working copy
      simp only [BatchState.removal, incident, List.map_cons, List.cons_append, List.cons.injEq]
        at removal
      obtain ⟨rfl, rfl⟩ := removal
      have wellFormed := effect.wellFormed templates safe.wellFormed
        (fun a node same => by cases same) (fun id same => by cases same)
      refine ⟨indexed, wellFormed, safe.waiting, .inr (.inl ⟨node, ?_⟩)⟩
      cases document : after.document
      rw [document] at effect
      cases effect with
      | changeNode changes => cases changes
      | removeConnection present same =>
        have left := removal_tail safe.wellFormed.connectionIds incident present same
        simp only [BatchState.removal]
        rw [left]
  -- an operation that stands for itself is no removal, so no connection is left without its end
  · cases alone
    refine ⟨indexed, effect.wellFormed templates safe.wellFormed pins ?_, safe.waiting, .inl rfl⟩
    exact fun id same => absurd same (keeps id)

theorem Step.safe {catalog : Catalog} (templates : catalog.PinsDistinct) {s t : BatchState}
    (step : Step catalog s t) (safe : s.Safe) : t.Safe := by
  cases step with
  | expand => exact safe.expand
  | apply applied => exact safe.apply templates applied

theorem Reaches.safe {catalog : Catalog} (templates : catalog.PinsDistinct) {s t : BatchState}
    (reaches : Reaches catalog s t) (safe : s.Safe) : t.Safe := by
  induction reaches with
  | refl => exact safe
  | tail _ step ih => exact step.safe templates ih

theorem applyAll_cons_eq_ok_iff {catalog : Catalog} {e after : Editor} {operation : Operation}
    {rest applied : List Operation} :
    applyAll catalog e (operation :: rest) = .ok (after, applied) ↔ ∃ next recorded others,
      operation.applyTo catalog e = .ok (next, recorded) ∧
        applyAll catalog next rest = .ok (after, others) ∧ applied = recorded :: others := by
  constructor
  · intro done
    obtain ⟨⟨next, recorded⟩, first, done⟩ := bind_eq_ok_iff.mp done
    obtain ⟨⟨last, others⟩, second, done⟩ := bind_eq_ok_iff.mp done
    cases done
    exact ⟨next, recorded, others, first, second, rfl⟩
  · rintro ⟨next, recorded, others, first, second, rfl⟩
    exact bind_eq_ok_iff.mpr ⟨_, first, bind_eq_ok_iff.mpr ⟨_, second, rfl⟩⟩

theorem applyExpanded_cons_eq_ok_iff {catalog : Catalog} {e after : Editor} {operation : Operation}
    {rest applied : List Operation} :
    applyExpanded catalog e (operation :: rest) = .ok (after, applied) ↔ ∃ next recorded others,
      applyAll catalog e (operation.expand e) = .ok (next, recorded) ∧
        applyExpanded catalog next rest = .ok (after, others) ∧ applied = recorded ++ others := by
  constructor
  · intro done
    obtain ⟨⟨next, recorded⟩, first, done⟩ := bind_eq_ok_iff.mp done
    obtain ⟨⟨last, others⟩, second, done⟩ := bind_eq_ok_iff.mp done
    cases done
    exact ⟨next, recorded, others, first, second, rfl⟩
  · rintro ⟨next, recorded, others, first, second, rfl⟩
    exact bind_eq_ok_iff.mpr ⟨_, first, bind_eq_ok_iff.mpr ⟨_, second, rfl⟩⟩

theorem reaches_of_applyAll {catalog : Catalog} {expanded waiting : List Operation} {e after : Editor}
    {applied : List Operation} (done : applyAll catalog e expanded = .ok (after, applied)) :
    Reaches catalog ⟨e, expanded, waiting⟩ ⟨after, [], waiting⟩ := by
  induction expanded generalizing e applied with
  | nil => cases done; exact .refl
  | cons operation rest ih =>
    obtain ⟨next, recorded, others, first, second, -⟩ := applyAll_cons_eq_ok_iff.mp done
    exact .head (.apply first) (ih second)

theorem reaches_of_applyExpanded {catalog : Catalog} {waiting : List Operation} {e after : Editor}
    {applied : List Operation} (done : applyExpanded catalog e waiting = .ok (after, applied)) :
    Reaches catalog ⟨e, [], waiting⟩ ⟨after, [], []⟩ := by
  induction waiting generalizing e applied with
  | nil => cases done; exact .refl
  | cons operation rest ih =>
    obtain ⟨next, recorded, others, first, second, -⟩ := applyExpanded_cons_eq_ok_iff.mp done
    exact .head .expand ((reaches_of_applyAll first).trans (ih second))

theorem initial_safe {d : Document} {operations : List Operation} (wellFormed : d.WellFormed)
    (pins : ∀ operation ∈ operations, operation.PinsDistinct) : (initial d operations).Safe :=
  ⟨Editor.indexed_ofDocument d, wellFormed, pins, .inl rfl⟩

end BatchState

theorem applyBatch_eq_ok {catalog : Catalog} {annotates : Bool} {d : Document}
    {operations : List Operation} {outcome : Outcome}
    (done : applyBatch catalog annotates d operations = .ok outcome) :
    ∃ e applied, applyExpanded catalog (.ofDocument d) operations = .ok (e, applied) ∧
      outcome.report = validate catalog e.document ∧ outcome.applied = applied ∧
      outcome.committed = !outcome.report.hasErrors ∧
      outcome.document = if outcome.committed then
        if annotates then annotate outcome.report e.document else e.document else d := by
  obtain ⟨⟨e, applied⟩, expanded, done⟩ := bind_eq_ok_iff.mp done
  refine ⟨e, applied, expanded, ?_⟩
  dsimp only at done
  split at done
  next errors => cases done; simp [errors]
  next clean => cases done; simp [clean]

/-- A batch on a flowchart without errors fails or is committed, if the nodes that it carries have
distinct pins; and each of its steps leaves a working copy without errors. -/
theorem applyBatch_commits {catalog : Catalog} (templates : catalog.PinsDistinct) (annotates : Bool)
    {d : Document} (valid : (validate catalog d).errors = []) {operations : List Operation}
    (pins : ∀ operation ∈ operations, operation.PinsDistinct) :
    ((∃ error, applyBatch catalog annotates d operations = .error error) ∨
        ∃ outcome, applyBatch catalog annotates d operations = .ok outcome ∧
          outcome.committed = true) ∧
      ∀ s, BatchState.Reaches catalog (.initial d operations) s →
        (validate catalog s.editor.document).errors = [] := by
  rw [Report.errors_eq_nil_iff, validate_errorFree_iff] at valid
  have safe : ∀ s, BatchState.Reaches catalog (.initial d operations) s → s.Safe := fun s reaches =>
    reaches.safe templates (BatchState.initial_safe valid pins)
  constructor
  · cases done : applyBatch catalog annotates d operations with
    | error error => exact .inl ⟨error, rfl⟩
    | ok outcome =>
      obtain ⟨e, applied, expanded, report, -, committed, -⟩ := applyBatch_eq_ok done
      have wellFormed := (safe _ (BatchState.reaches_of_applyExpanded expanded)).wellFormed
      rw [← validate_hasErrors_eq_false_iff catalog] at wellFormed
      exact .inr ⟨outcome, rfl, by rw [committed, report, wellFormed]; rfl⟩
  · intro s reaches
    rw [Report.errors_eq_nil_iff, validate_errorFree_iff]
    exact (safe s reaches).wellFormed

theorem builtin_pinsDistinct : Catalog.builtin.PinsDistinct := by
  intro t member
  simp only [Catalog.builtin, List.mem_cons, List.not_mem_nil, or_false] at member
  rcases member with rfl | rfl | rfl | rfl | rfl | rfl | rfl
  all_goals exact ⟨by decide, fun side => by cases side <;> decide⟩

/-- A trigger that starts a delay, whose duration comes from a note. -/
def sampleFlowchart : Document :=
  { nodes := .of [NodeType.trigger.create "start" ⟨0, 0⟩ none [],
      NodeType.delay.create "wait" ⟨0, 0⟩ none [],
      { id := "note", type := "note", outputPins := some [dataPin "amount" .number false] }]
    connections := .of [⟨"go", ⟨"start", "exec-out"⟩, ⟨"wait", "exec-in"⟩, .execution⟩,
      ⟨"amount", ⟨"note", "amount"⟩, ⟨"wait", "duration"⟩, .data⟩] }

/-- A batch that takes away a node with two connections, and puts other parts in its place. -/
def sampleBatch : List Operation :=
  [.removeNode "wait",
    .addNode { nodeType := .value "delay", id := .value "wait" },
    .addNode { node := .value { id := "end", type := "log", inputPins := some [executionIn] } },
    .addConnection { source := ⟨"start", "exec-out"⟩, target := ⟨"wait", "exec-in"⟩ },
    .addConnection { source := ⟨"wait", "exec-out"⟩, target := ⟨"end", "exec-in"⟩ },
    .setVariable { id := "v", name := "speed", kind := .number }]

theorem applyBatch_commits_sample :
    (validate .builtin sampleFlowchart).errors = [] ∧
      (∀ operation ∈ sampleBatch, operation.PinsDistinct) ∧
      ((∃ error, applyBatch .builtin true sampleFlowchart sampleBatch = .error error) ∨
          ∃ outcome, applyBatch .builtin true sampleFlowchart sampleBatch = .ok outcome ∧
            outcome.committed = true) ∧
      ∀ s, BatchState.Reaches .builtin (.initial sampleFlowchart sampleBatch) s →
        (validate .builtin s.editor.document).errors = [] := by
  have valid : (validate .builtin sampleFlowchart).errors = [] := by decide
  have pins : ∀ operation ∈ sampleBatch, operation.PinsDistinct := by
    intro operation member a node same given
    subst same
    simp only [sampleBatch, List.mem_cons, List.not_mem_nil, reduceCtorEq, or_false, false_or,
      Operation.addNode.injEq] at member
    rcases member with rfl | rfl
    · cases given
    · cases given
      exact ⟨by decide, fun side => by cases side <;> decide⟩
  exact ⟨valid, pins, applyBatch_commits builtin_pinsDistinct true valid pins⟩

end Flowchart
