import Flowchart.Proofs.Document.RoundTrip
import Flowchart.Proofs.Edit.Soundness

/-!
# What of an edited flowchart is read back

* `Operation.renews`: an operation that takes items from a list of nodes, variables or comments puts a new
  list in its place. Every other operation changes the lists in their places.
* `BatchState.Step.isDue_eq`, `applyExpanded_isGiven`: a list that a flowchart was not given is given in the
  end exactly if an operation of the batch renews it.
* `applyBatch_read_render`: which lists of the outcome of a batch survive being written and read back.
-/

namespace Flowchart

/-- The top-level lists of a flowchart. -/
inductive TopList where
  | nodes
  | connections
  | vars
  | comments
  deriving DecidableEq

namespace Document

/-- Whether a flowchart was given a list. -/
def isGiven (d : Document) : TopList → Bool
  | .nodes => d.nodes.given
  | .connections => d.connections.given
  | .vars => d.vars.given
  | .comments => d.comments.given

/-- Whether a list of a flowchart has no items. -/
def isBare (d : Document) : TopList → Bool
  | .nodes => d.nodes.items.isEmpty
  | .connections => d.connections.items.isEmpty
  | .vars => d.vars.items.isEmpty
  | .comments => d.comments.items.isEmpty

/-- Two flowcharts have the same items in a list, in the same order. -/
def SameItems (d other : Document) : TopList → Prop
  | .nodes => d.nodes.items = other.nodes.items
  | .connections => d.connections.items = other.connections.items
  | .vars => d.vars.items = other.vars.items
  | .comments => d.comments.items = other.comments.items

end Document

/-- Whether an operation puts a new list in the place of one. -/
def Operation.renews : Operation → TopList → Bool
  | removeNode _, .nodes => true
  | removeVariable _, .vars => true
  | removeComment _, .comments => true
  | _, _ => false

/-! ### Which lists are given after a batch -/

theorem Operation.Effect.isGiven_eq {catalog : Catalog} {d after : Document}
    {operation recorded : Operation} (effect : Effect catalog d operation after recorded)
    (list : TopList) : after.isGiven list = (d.isGiven list || operation.renews list) := by
  cases effect with
  -- of the edits to nodes, only a removal assigns the list
  | changeNode changes _ _ =>
    cases operation <;> cases changes <;> cases list <;> exact (Bool.or_false _).symm
  | removeNode _ =>
    cases list with
    | nodes => exact (Bool.or_true _).symm
    | connections | vars | comments => exact (Bool.or_false _).symm
  | removeVariable _ =>
    cases list with
    | vars => exact (Bool.or_true _).symm
    | nodes | connections | comments => exact (Bool.or_false _).symm
  | removeComment _ =>
    cases list with
    | comments => exact (Bool.or_true _).symm
    | nodes | connections | vars => exact (Bool.or_false _).symm
  | addNode | addTypedNode | addConnection | removeConnection | setVariable | addComment
  | setViewport => cases list <;> exact (Bool.or_false _).symm

/-- The connections that go with a node are taken away one by one, so only its own removal counts. -/
theorem Operation.any_renews_expand (e : Editor) (operation : Operation) (list : TopList) :
    (operation.expand e).any (fun other => other.renews list) = operation.renews list := by
  -- taking a connection away edits the list of connections in place
  have removals (node : String) : ((e.document.incident node).map fun c =>
      removeConnection c.id).any (fun other => other.renews list) = false := by
    rw [List.any_map, List.any_eq_false]
    intro c _
    cases list <;> exact Bool.false_ne_true
  unfold expand
  split
  next node =>
    split
    · rw [List.any_append, removals node, Bool.false_or, List.any_cons, List.any_nil, Bool.or_false]
    · exact Bool.or_false _
  next => exact Bool.or_false _

namespace BatchState

/-- Whether a list is given, or will be when the batch has ended. -/
def isDue (s : BatchState) (list : TopList) : Bool :=
  s.editor.document.isGiven list || s.expanded.any (fun operation => operation.renews list) ||
    s.waiting.any fun operation => operation.renews list

/-- A step of a batch changes nothing about the lists that will be given in the end. -/
theorem Step.isDue_eq {catalog : Catalog} {s t : BatchState} (indexed : s.editor.Indexed)
    (step : Step catalog s t) (list : TopList) : t.isDue list = s.isDue list := by
  cases step with
  | expand =>
    simp only [isDue, Operation.any_renews_expand, List.any_nil, List.any_cons, Bool.or_false,
      Bool.or_assoc]
  | apply applied =>
    obtain ⟨effect, -⟩ := Operation.effect_of_applyTo indexed applied
    simp only [isDue, effect.isGiven_eq, List.any_cons, Bool.or_assoc]

theorem Reaches.isDue_eq {catalog : Catalog} {s t : BatchState} (reaches : Reaches catalog s t)
    (indexed : s.editor.Indexed) (list : TopList) :
    t.editor.Indexed ∧ t.isDue list = s.isDue list := by
  induction reaches with
  | refl => exact ⟨indexed, rfl⟩
  | tail _ step ih => exact ⟨step.indexed ih.1, (step.isDue_eq ih.1 list).trans ih.2⟩

end BatchState

theorem applyExpanded_isGiven {catalog : Catalog} {d : Document} {operations applied : List Operation}
    {e : Editor} (done : applyExpanded catalog (.ofDocument d) operations = .ok (e, applied))
    (list : TopList) : e.document.isGiven list =
      (d.isGiven list || operations.any fun operation => operation.renews list) := by
  have reaches := BatchState.reaches_of_applyExpanded done
  have due := (reaches.isDue_eq (Editor.indexed_ofDocument d) list).2
  simpa [BatchState.isDue, Editor.ofDocument] using due

/-- A committed batch leaves the lists given that were given before, those that an operation renews, and
the nodes if their findings are put on them. -/
theorem applyBatch_isGiven {catalog : Catalog} {annotates : Bool} {d : Document}
    {operations : List Operation} {outcome : Outcome}
    (done : applyBatch catalog annotates d operations = .ok outcome)
    (committed : outcome.committed = true) (list : TopList) : outcome.document.isGiven list = true ↔
      d.isGiven list = true ∨ (∃ operation ∈ operations, operation.renews list = true) ∨
        annotates = true ∧ list = .nodes := by
  obtain ⟨e, applied, expanded, -, -, -, document⟩ := applyBatch_eq_ok done
  have given : e.document.isGiven list = true ↔ d.isGiven list = true ∨
      ∃ operation ∈ operations, operation.renews list = true := by
    rw [applyExpanded_isGiven expanded list, Bool.or_eq_true, List.any_eq_true]
  rw [committed, if_pos rfl] at document
  rw [document]
  cases annotates with
  | false => simp [given]
  | true =>
    cases list with
    | nodes => simp [annotate, Document.isGiven, Collection.of]
    | connections | vars | comments => simpa [annotate, Document.isGiven] using given

/-! ### What is read back -/

namespace Collection

theorem reread_items_eq_iff (c : Collection α) :
    c.reread.items = c.items ↔ c.items.isEmpty = true ∨ c.given = true := by
  obtain ⟨items, given⟩ := c
  cases given with
  | false =>
    cases items with
    | nil => simp [reread, of]
    | cons a items => simp [reread, of]
  | true => simp [reread, of]

end Collection

theorem Document.sameItems_reread_iff (d : Document) (list : TopList) :
    d.reread.SameItems d list ↔ d.isBare list = true ∨ d.isGiven list = true := by
  cases list <;> exact Collection.reread_items_eq_iff _

/-- The outcome of a committed batch is read back with the same viewport, and with the same items in a
list exactly if the list is empty, was given to the flowchart from the start, is renewed by an operation
of the batch, or holds the nodes and findings are put on them. -/
theorem applyBatch_read_render {catalog : Catalog} (templates : catalog.Sound) {payload : Payload}
    (payloadKeys : payload.DistinctKeys) {d : Document} (read : Document.read payload = .ok d)
    {raw : Json} (rawKeys : raw.DistinctKeys) {operations : List Operation}
    (checked : Operation.checkList raw = .ok operations) {annotates : Bool} {outcome : Outcome}
    (done : applyBatch catalog annotates d operations = .ok outcome)
    (committed : outcome.committed = true) (indent : Option Nat) :
    ∃ back, Document.read (.text (outcome.document.render indent)) = .ok back ∧
      back.viewport = outcome.document.viewport ∧
      ∀ list, back.SameItems outcome.document list ↔
        outcome.document.isBare list = true ∨ d.isGiven list = true ∨
          (∃ operation ∈ operations, operation.renews list = true) ∨
          annotates = true ∧ list = .nodes := by
  have sound : outcome.document.Sound := applyBatch_sound templates
    (Document.sound_of_read payloadKeys read) (Operation.sound_of_checkList rawKeys checked) done
  refine ⟨outcome.document.reread, Document.read_render sound indent, rfl, fun list => ?_⟩
  rw [Document.sameItems_reread_iff, applyBatch_isGiven done committed]

/-- A batch of one comment, as it comes in. -/
def sampleComment : Json :=
  .array [.object [("op", .string "add_comment"), ("comment", .object [("id", .string "c"),
    ("position", .array [.double 0, .double 0]), ("size", .array [.double 1, .double 1])])]]

/-- A comment that is added to a flowchart without a list of comments is not read back. -/
theorem applyBatch_read_render_comment : ∃ d operations outcome back,
    Document.read (.value (.object [])) = .ok d ∧
      Operation.checkList sampleComment = .ok operations ∧
      applyBatch .builtin true d operations = .ok outcome ∧ outcome.committed = true ∧
      Document.read (.text (outcome.document.render none)) = .ok back ∧
      back.SameItems outcome.document .nodes ∧ ¬back.SameItems outcome.document .comments := by
  let comment : Comment := { id := "c", position := ⟨0, 0⟩, size := ⟨1, 1⟩ }
  have rawKeys : sampleComment.DistinctKeys := by
    simp [sampleComment, Json.DistinctKeys, Json.ItemsDistinct, Json.FieldsDistinct, Json.Fields.keys]
  have read : Document.read (.value (.object [])) = .ok {} := rfl
  have checked : Operation.checkList sampleComment = .ok [.addComment comment] := rfl
  -- the comment is in the outcome, whose list of comments was never given
  obtain ⟨outcome, done, committed, bare⟩ : ∃ outcome,
      applyBatch .builtin true {} [.addComment comment] = .ok outcome ∧
        outcome.committed = true ∧ outcome.document.isBare .comments = false := ⟨_, rfl, rfl, rfl⟩
  obtain ⟨back, reread, -, same⟩ :=
    applyBatch_read_render builtin_sound Payload.distinctKeys_empty read rawKeys checked done committed none
  refine ⟨_, _, outcome, back, read, checked, done, committed, reread, ?_, fun kept => ?_⟩
  · exact (same .nodes).2 (.inr (.inr (.inr ⟨rfl, rfl⟩)))
  · rw [same .comments, bare] at kept
    simp [Document.isGiven, Operation.renews] at kept

end Flowchart
