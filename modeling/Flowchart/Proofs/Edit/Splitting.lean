import Flowchart.Proofs.Edit.Comparison
import Flowchart.Proofs.Edit.Replay

/-!
# Batches in two parts

A batch may be committed in two parts. In between findings are noted on the nodes and the indices are built
anew, which the second part does not see.

* `Node.Matches`: nodes that are equal, except that findings that one of them lacks may be null in the other.
* `applyBatch_append`: the two parts come to what the whole batch comes to.
-/

namespace Flowchart

variable {catalog : Catalog} {same : Node → Node → Prop} {marks : Prop}

/-- The nodes are equal, except that findings that are missing may be absent in one and null in the other. -/
structure Node.Matches (node other : Node) : Prop where
  bare : node.bare = other.bare
  errors : node.errors.get? = other.errors.get?
  warnings : node.warnings.get? = other.warnings.get?

theorem Node.Matches.refl (node : Node) : node.Matches node := ⟨rfl, rfl, rfl⟩

/-- A node carries the messages of its findings, or none. -/
theorem annotateNode_findings (r : Report) (node : Node) :
    let findings := r.forNode node.id
    let messages (kind : Finding → Bool) : Option (List String) :=
      if findings.isEmpty then none else some ((findings.filter kind).map Finding.message)
    (annotateNode r node).errors.get? = messages Finding.isError ∧
      (annotateNode r node).warnings.get? = messages fun f => !f.isError := by
  dsimp only
  unfold annotateNode
  dsimp only
  split
  next =>
    split
    next => exact ⟨rfl, rfl⟩
    next missing => simpa using missing
  next => exact ⟨rfl, rfl⟩

/-- Findings that stood on nodes before are lost when new ones are noted. -/
theorem annotateNode_matches (r : Report) {node other : Node} (bare : node.bare = other.bare) :
    (annotateNode r node).Matches (annotateNode r other) := by
  have ids : node.id = other.id := (congrArg Node.id bare : node.bare.id = other.bare.id)
  obtain ⟨errors, warnings⟩ := annotateNode_findings r node
  obtain ⟨otherErrors, otherWarnings⟩ := annotateNode_findings r other
  refine ⟨by rw [annotateNode_bare, annotateNode_bare, bare], ?_, ?_⟩
  · rw [errors, otherErrors, ids]
  · rw [warnings, otherWarnings, ids]

namespace Document.Alike

variable {d other : Document}

theorem annotate (r : Report) (alike : d.Alike (fun node other => node.bare = other.bare) marks other) :
    (annotate r d).Alike Node.Matches True (annotate r other) where
  nodes := by
    refine List.forall₂_map_left_iff.mpr (List.forall₂_map_right_iff.mpr (alike.nodes.imp ?_))
    exact fun node other bare => annotateNode_matches r bare
  given _ := rfl
  connections := alike.connections
  vars := alike.vars
  comments := alike.comments
  viewport := alike.viewport

theorem weaken (alike : d.Alike Eq True other) : d.Alike Node.Matches True other :=
  { alike with nodes := alike.nodes.imp fun node _ same => same ▸ Node.Matches.refl node }

theorem annotated (r : Report) (d : Document) :
    d.Alike (fun node other => node.bare = other.bare) False (Flowchart.annotate r d) where
  nodes := by
    refine List.forall₂_map_right_iff.mpr (List.forall₂_same.mpr fun node _ => ?_)
    exact (annotateNode_bare r node).symm
  given := False.elim
  connections := rfl
  vars := rfl
  comments := rfl
  viewport := rfl

theorem refl (d : Document) : d.Alike Eq marks d :=
  ⟨List.forall₂_refl _, fun _ => rfl, rfl, rfl, rfl, rfl⟩

end Document.Alike

/-- What a batch comes to, by what its operations come to. -/
theorem applyBatch_agree (congruence : Node.Congruence same) (annotates : Bool) {d other : Document}
    {operations others before : List Operation}
    (settles : ∀ {e there : Document} (r : Report), e.Alike same marks there →
      (if annotates then annotate r e else e).Alike Node.Matches True
        (if annotates then annotate r there else there))
    (applied : Agree (fun done there => done.1.document.Alike same marks there.1.document ∧
        done.2 = before ++ there.2)
      (applyExpanded catalog (.ofDocument d) operations)
      (applyExpanded catalog (.ofDocument other) others)) :
    Agree (fun whole rest => whole.committed = rest.committed ∧ whole.report = rest.report ∧
        whole.applied = before ++ rest.applied ∧
        (whole.committed = true → whole.document.Alike Node.Matches True rest.document))
      (applyBatch catalog annotates d operations) (applyBatch catalog annotates other others) := by
  refine applied.bind ?_
  rintro ⟨e, _⟩ ⟨there, recorded⟩ ⟨alike, rfl⟩
  dsimp only
  rw [alike.validate_eq congruence]
  split
  next => exact .ok ⟨rfl, rfl, rfl, fun committed => by cases committed⟩
  next => exact .ok ⟨rfl, rfl, rfl, fun _ => settles _ alike⟩

/-- After a batch that was committed, another one comes to what both come to as one batch: the same error,
or the same verdict and report. What is applied is the same, and so is the flowchart if it is committed. -/
theorem applyBatch_append {annotates : Bool} {d : Document} {first second : List Operation} {o : Outcome}
    (done : applyBatch catalog annotates d first = .ok o) (committed : o.committed = true) :
    Agree (fun whole rest => whole.committed = rest.committed ∧ whole.report = rest.report ∧
        whole.applied = o.applied ++ rest.applied ∧
        (whole.committed = true → whole.document.Alike Node.Matches True rest.document))
      (applyBatch catalog annotates d (first ++ second))
      (applyBatch catalog annotates o.document second) := by
  obtain ⟨e, applied, expanded, -, recorded, -, document⟩ := applyBatch_eq_ok done
  have indexed : e.Indexed :=
    (BatchState.reaches_of_applyExpanded expanded).indexed (Editor.indexed_ofDocument d)
  rw [if_pos committed] at document
  rw [recorded]
  -- the second part runs on the working copy that the first one leaves, or on a fresh one of its result
  have parts {same : Node → Node → Prop} {marks : Prop} (congruence : Node.Congruence same)
      (alike : e.document.Alike same marks o.document) :
      Agree (fun done there => done.1.document.Alike same marks there.1.document ∧
          done.2 = applied ++ there.2)
        (applyExpanded catalog (.ofDocument d) (first ++ second))
        (applyExpanded catalog (.ofDocument o.document) second) := by
    rw [applyExpanded_append_eq expanded]
    refine (applyExpanded_alike congruence
      ⟨alike, indexed, Editor.indexed_ofDocument o.document⟩ second).map_left ?_
    rintro ⟨after, others⟩ ⟨there, _⟩ ⟨alike, rfl⟩
    exact ⟨alike.document, rfl⟩
  cases annotates with
  | true =>
    have alike := Document.Alike.annotated o.report e.document
    rw [if_pos rfl] at document
    rw [← document] at alike
    exact applyBatch_agree .bareEq true (fun r alike => alike.annotate r) (parts .bareEq alike)
  | false =>
    rw [if_neg Bool.false_ne_true] at document
    have alike : e.document.Alike Eq True o.document := document ▸ .refl o.document
    exact applyBatch_agree .eq false (fun _ alike => alike.weaken) (parts .eq alike)

/-- A trigger, and a step that it does not reach, with findings that are null. -/
def looseFlowchart : Document :=
  { nodes := .of [NodeType.trigger.create "start" ⟨0, 0⟩ none [],
      { id := "end", type := "log", inputPins := some [executionIn], errors := .null }] }

/-- The connection that `looseFlowchart` lacks. -/
def looseJoining : Operation :=
  .addConnection { source := ⟨"start", "exec-out"⟩, target := ⟨"end", "exec-in"⟩ }

/-- Between the two parts the step is noted as unreachable. Its null is lost then, where the whole batch
leaves it. -/
theorem applyBatch_append_loose : ∃ o whole rest,
    applyBatch .builtin true looseFlowchart [.moveNode "end" ⟨1, 1⟩] = .ok o ∧ o.committed = true ∧
      applyBatch .builtin true looseFlowchart [.moveNode "end" ⟨1, 1⟩, looseJoining] = .ok whole ∧
      applyBatch .builtin true o.document [looseJoining] = .ok rest ∧
      whole.committed = true ∧ whole.document.Alike Node.Matches True rest.document ∧
      whole.document.nodes.items.map Node.errors = [.absent, .null] ∧
      rest.document.nodes.items.map Node.errors = [.absent, .absent] := by
  obtain ⟨o, rest, done, committed, after, restErrors⟩ : ∃ o rest,
      applyBatch .builtin true looseFlowchart [.moveNode "end" ⟨1, 1⟩] = .ok o ∧ o.committed = true ∧
        applyBatch .builtin true o.document [looseJoining] = .ok rest ∧
        rest.document.nodes.items.map Node.errors = [.absent, .absent] := ⟨_, _, rfl, rfl, rfl, rfl⟩
  obtain ⟨whole, entire, accepted, wholeErrors⟩ : ∃ whole,
      applyBatch .builtin true looseFlowchart [.moveNode "end" ⟨1, 1⟩, looseJoining] = .ok whole ∧
        whole.committed = true ∧
        whole.document.nodes.items.map Node.errors = [.absent, .null] := ⟨_, rfl, rfl, rfl⟩
  have agree : Agree _ (applyBatch _ _ _ (_ ++ [looseJoining])) _ := applyBatch_append done committed
  rw [List.singleton_append, entire, after] at agree
  cases agree with
  | ok related =>
    exact ⟨o, whole, rest, done, committed, entire, after, accepted, related.2.2.2 accepted, wholeErrors,
      restErrors⟩

end Flowchart
