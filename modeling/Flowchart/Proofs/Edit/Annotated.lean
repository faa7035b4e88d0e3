import Flowchart.Proofs.Document.RoundTrip
import Flowchart.Proofs.Edit.Soundness
import Flowchart.Proofs.Validation.Derived

/-!
# Findings on the nodes of a committed flowchart

* `Report.about`, `Report.forNode_eq`: the findings about a node are those that bear its id, or have it among the nodes
  they relate to.
* `Node.Shows`: a node carries the messages of the findings about it, and no others.
* `annotateNode_shows`, `Node.Shows.annotateNode_eq`: a node shows a report after its findings are put on it,
  and a node that shows a report is left as it is.
* `Node.rebuild_eq`: a node that is read back from its written form without its findings loses nothing else.
* `Node.Marks`, `marks_annotateNode`: findings are put on a node in one of three ways, one of which rebuilds it.
* `applyBatch_annotated`: a committed flowchart is validated to its own report, which its nodes show.
-/

namespace Flowchart

open Json (Fields)

variable {catalog : Catalog} {r : Report} {node : Node} {d : Document}

/-- The findings about a node, in the order of the report. -/
def Report.about (r : Report) (id : String) : List Finding :=
  r.findings.filter fun f => f.nodeId? = some id ∨ id ∈ f.related

theorem Report.forNode_eq (r : Report) (id : String) : r.forNode id = r.about id := by
  refine List.filter_congr fun f _ => ?_
  rw [Bool.eq_iff_iff]
  simp [Finding.names]

/-- A node carries the messages of the findings about it, in the order of the report: those of errors as
its errors, the others as its warnings. A node that no finding is about has neither. -/
structure Node.Shows (r : Report) (node : Node) : Prop where
  named : r.about node.id ≠ [] →
    node.errors = .value (((r.about node.id).filter Finding.isError).map Finding.message) ∧
      node.warnings = .value (((r.about node.id).filter fun f => !f.isError).map Finding.message)
  unnamed : r.about node.id = [] → node.errors.get? = none ∧ node.warnings.get? = none

theorem annotateNode_id (r : Report) (node : Node) : (annotateNode r node).id = node.id := by
  rw [← Node.bare_id, annotateNode_bare, Node.bare_id]

/-! ### One node -/

theorem annotateNode_of_named (named : r.about node.id ≠ []) :
    annotateNode r node = { node with
      errors := .value (((r.about node.id).filter Finding.isError).map Finding.message)
      warnings := .value (((r.about node.id).filter fun f => !f.isError).map Finding.message) } := by
  simp [annotateNode, Report.forNode_eq, named]

/-- Findings from before are dropped; a node without any is kept. -/
theorem annotateNode_of_unnamed (unnamed : r.about node.id = []) :
    annotateNode r node =
      if node.errors.get?.isSome || node.warnings.get?.isSome then node.bare else node := by
  simp [annotateNode, Report.forNode_eq, unnamed, Node.bare]

theorem annotateNode_shows (r : Report) (node : Node) : (annotateNode r node).Shows r where
  named named := by
    rw [annotateNode_id] at named ⊢
    rw [annotateNode_of_named named]
    exact ⟨rfl, rfl⟩
  unnamed unnamed := by
    rw [annotateNode_id] at unnamed
    rw [annotateNode_of_unnamed unnamed]
    split
    next => exact ⟨rfl, rfl⟩
    next clean => simpa using clean

/-- A node that shows a report is left as it is. -/
theorem Node.Shows.annotateNode_eq (shows : node.Shows r) : annotateNode r node = node := by
  by_cases unnamed : r.about node.id = []
  · obtain ⟨errors, warnings⟩ := shows.unnamed unnamed
    simp [annotateNode_of_unnamed unnamed, errors, warnings]
  · obtain ⟨errors, warnings⟩ := shows.named unnamed
    rw [annotateNode_of_named unnamed, ← errors, ← warnings]

/-! ### Findings dropped from the written form -/

/-- Taking fields out of written ones by their names takes their values out of the layout. -/
theorem Json.Fields.filter_given (keeps : String → Bool) (entries : List (FieldName × Option Json)) :
    (given entries).filter (fun field => keeps field.1) =
      given (entries.map fun entry => (entry.1, if keeps entry.1.wire then entry.2 else none)) := by
  induction entries with
  | nil => rfl
  | cons entry entries ih =>
    obtain ⟨name, value⟩ := entry
    cases value with
    | none => simpa [given] using ih
    | some v =>
      by_cases kept : keeps name.wire = true
      · simpa [given, kept] using ih
      · simpa [given, kept] using ih

namespace Node

/-- Whether a field of a node is one that a validation derives. -/
def isDerived (name : String) : Bool := name == "errors" || name == "warnings"

/-- A node that is read back from its written form without its findings. -/
def rebuild (node : Node) : Checked Node :=
  Node.check (.object (node.toFields.filter fun field => !isDerived field.1))

theorem toFields_eq_given (node : Node) : node.toFields = Fields.given node.entries := by
  simp only [entries, Fields.given_field, Fields.given_optional, Fields.given_slot,
    Fields.given_look, toFields, Fields.given_nil, List.append_assoc, List.append_nil]
  rfl

theorem Sound.bare (sound : node.Sound) : node.bare.Sound := { sound with }

/-- A node that is rebuilt has lost its findings, and nothing else. -/
theorem rebuild_eq (sound : node.Sound) : node.rebuild = .ok node.bare := by
  have written : (node.toFields.filter fun field => !isDerived field.1) = node.bare.toFields := by
    rw [toFields_eq_given, toFields_eq_given, Fields.filter_given fun name => !isDerived name]
    rfl
  rw [rebuild, written]
  exact check_toJson sound.bare

end Node

/-- A node with findings that are out of date is annotated by rebuilding it. -/
theorem annotateNode_eq_rebuild (sound : node.Sound) (unnamed : r.about node.id = [])
    (stale : (node.errors.get?.isSome || node.warnings.get?.isSome) = true) :
    node.rebuild = .ok (annotateNode r node) := by
  rw [Node.rebuild_eq sound, annotateNode_of_unnamed unnamed, if_pos stale]

/-- What becomes of a node when the findings of a report are put on it: it gets its own, or it is rebuilt as those it
has are out of date, or it stays as it is. -/
inductive Node.Marks (r : Report) (node : Node) : Node → Prop where
  | named (named : r.about node.id ≠ []) : Marks r node { node with
      errors := .value (((r.about node.id).filter Finding.isError).map Finding.message)
      warnings := .value (((r.about node.id).filter fun f => !f.isError).map Finding.message) }
  | stale {after : Node} (unnamed : r.about node.id = [])
      (stale : (node.errors.get?.isSome || node.warnings.get?.isSome) = true) (rebuilt : node.rebuild = .ok after) :
      Marks r node after
  | clean (unnamed : r.about node.id = [])
      (clean : (node.errors.get?.isSome || node.warnings.get?.isSome) = false) : Marks r node node

theorem marks_annotateNode (sound : node.Sound) (r : Report) : node.Marks r (annotateNode r node) := by
  by_cases unnamed : r.about node.id = []
  · cases stale : node.errors.get?.isSome || node.warnings.get?.isSome with
    | true => exact .stale unnamed stale (annotateNode_eq_rebuild sound unnamed stale)
    | false =>
      have kept : annotateNode r node = node := by
        rw [annotateNode_of_unnamed unnamed, stale]
        rfl
      rw [kept]
      exact .clean unnamed stale
  · rw [annotateNode_of_named unnamed]
    exact .named unnamed

/-! ### Whole flowcharts -/

/-- Putting findings on the nodes does not change what a validation finds. -/
theorem validate_annotate (catalog : Catalog) (r : Report) (d : Document) :
    validate catalog (annotate r d) = validate catalog d := by
  refine validate_congr catalog ?_ rfl rfl rfl
  simp only [annotate, Collection.of, List.map_map, Function.comp_def, annotateNode_bare]

theorem annotate_shows (r : Report) (d : Document) :
    ∀ node ∈ (annotate r d).nodes.items, node.Shows r :=
  List.forall_mem_map.2 fun node _ => annotateNode_shows r node

theorem annotate_marks (sound : d.Sound) (r : Report) :
    List.Forall₂ (Node.Marks r) d.nodes.items (annotate r d).nodes.items :=
  List.forall₂_map_right_iff.2 (List.forall₂_same.2 fun node mem => marks_annotateNode (sound.nodes node mem) r)

/-- Findings that are put on the nodes again change nothing. -/
theorem annotate_annotate (r : Report) (d : Document) : annotate r (annotate r d) = annotate r d := by
  have nodes : (d.nodes.items.map (annotateNode r)).map (annotateNode r) =
      d.nodes.items.map (annotateNode r) := by
    rw [List.map_map]
    exact List.map_congr_left fun node _ => (annotateNode_shows r node).annotateNode_eq
  simp only [annotate, Collection.of, nodes]

/-- A flowchart that was committed is validated to its own report, which has no errors. Its nodes show that
report, whatever findings they came with, and putting the findings of a validation on them again changes
nothing. They are the nodes that the operations leave, with the findings of the report put on them. -/
theorem applyBatch_annotated {operations : List Operation} {outcome : Outcome}
    (done : applyBatch catalog true d operations = .ok outcome) (committed : outcome.committed = true) :
    validate catalog outcome.document = outcome.report ∧ outcome.report.errors = [] ∧
      (∀ node ∈ outcome.document.nodes.items, node.Shows outcome.report) ∧
      annotate (validate catalog outcome.document) outcome.document = outcome.document ∧
      (catalog.Sound → d.Sound → (∀ operation ∈ operations, operation.Sound) → ∃ e applied,
        applyExpanded catalog (.ofDocument d) operations = .ok (e, applied) ∧
          List.Forall₂ (Node.Marks outcome.report) e.document.nodes.items outcome.document.nodes.items) := by
  obtain ⟨e, applied, edited, report, -, clean, document⟩ := applyBatch_eq_ok done
  rw [committed, if_pos rfl, if_pos rfl] at document
  have validated : validate catalog outcome.document = outcome.report := by
    rw [document, validate_annotate, report]
  have fine : outcome.report.hasErrors = false := by
    rwa [committed, eq_comm, Bool.not_eq_true'] at clean
  refine ⟨validated, ?_, ?_, ?_, ?_⟩
  · rwa [Report.errors_eq_nil_iff, ← Report.hasErrors_eq_false_iff]
  · rw [document]
    exact annotate_shows _ _
  · rw [validated, document]
    exact annotate_annotate _ _
  · intro templates sound each
    refine ⟨e, applied, edited, ?_⟩
    rw [document]
    exact annotate_marks (applyExpanded_sound templates sound each edited) _

/-- A flowchart whose nodes claim an error that no validation finds. -/
def sampleStale : Document :=
  { sampleFlowchart with
    nodes := sampleFlowchart.nodes.edit (List.map fun node => { node with errors := .value ["stale"] }) }

/-- A node that nothing leads to comes with a warning of its own. -/
def sampleClaim : NodeAddition :=
  let node : Node :=
    { id := "end", type := "log", inputPins := some [executionIn], warnings := .value ["claimed"] }
  { node := .value node }

/-- A node that has nothing but pins is sound if they are. -/
theorem pinned_sound {id type : String} (named : id.isEmpty = false) (typed : type.isEmpty = false)
    {inputs outputs : List Pin} (sound : ∀ pin ∈ inputs ++ outputs, pin.Sound) :
    { id, type, inputPins := some inputs, outputPins := some outputs : Node }.Sound where
  id := named
  type := typed
  label := by rintro _ ⟨⟩
  data := by rintro _ ⟨⟩
  inputPins := by
    rintro _ ⟨⟩ pin mem
    exact sound pin (List.mem_append_left _ mem)
  outputPins := by
    rintro _ ⟨⟩ pin mem
    exact sound pin (List.mem_append_right _ mem)
  width := by rintro _ ⟨⟩
  height := by rintro _ ⟨⟩
  collapsed := by rintro _ ⟨⟩

theorem sampleStale_sound : sampleStale.Sound where
  nodes := by
    have typed (t : NodeType) (known : t ∈ Catalog.builtin.types) (named : t.id.isEmpty = false) (id : String)
        (filled : id.isEmpty = false) : (t.create id ⟨0, 0⟩ none []).Sound :=
      NodeType.create_sound (builtin_sound t known) named filled (.nil 1) _ _
    intro node mem
    simp only [sampleStale, sampleFlowchart, Collection.edit, Collection.of, List.map_cons, List.map_nil, List.mem_cons,
      List.not_mem_nil, or_false] at mem
    rcases mem with rfl | rfl | rfl
    · exact { typed .trigger (by simp [Catalog.builtin]) rfl "start" rfl with }
    · exact { typed .delay (by simp [Catalog.builtin]) rfl "wait" rfl with }
    · have pin : (dataPin "amount" .number false).Sound := Pin.sound_of_isPlain rfl
      have pinned : { id := "note", type := "note", inputPins := some [], outputPins := some [_] : Node }.Sound :=
        pinned_sound rfl rfl (List.forall_mem_singleton.mpr pin)
      exact { pinned with inputPins := by rintro _ ⟨⟩ }
  connections := by
    intro c mem
    simp only [sampleStale, sampleFlowchart, Collection.of, List.mem_cons, List.not_mem_nil, or_false] at mem
    rcases mem with rfl | rfl
    · exact ⟨rfl, rfl, rfl, rfl, rfl⟩
    · exact ⟨rfl, rfl, rfl, rfl, rfl⟩
  vars _ mem := absurd mem List.not_mem_nil
  comments _ mem := absurd mem List.not_mem_nil

theorem sampleClaim_sound : sampleClaim.Sound where
  node := by
    rintro node ⟨⟩
    have pin : executionIn.Sound := Pin.sound_of_isPlain rfl
    have pinned : { id := "end", type := "log", inputPins := some [_], outputPins := some [] : Node }.Sound :=
      pinned_sound rfl rfl (List.forall_mem_singleton.mpr pin)
    exact { pinned with outputPins := by rintro _ ⟨⟩ }
  id absent := by cases absent
  data := .nil 1

theorem applyBatch_annotated_sample : ∃ outcome,
    applyBatch .builtin true sampleStale [.addNode sampleClaim] = .ok outcome ∧
      outcome.committed = true ∧
      outcome.report.findings = [.unreachable "end"] ∧
      validate .builtin outcome.document = outcome.report ∧ outcome.report.errors = [] ∧
      (∀ node ∈ outcome.document.nodes.items, node.Shows outcome.report) ∧
      annotate (validate .builtin outcome.document) outcome.document = outcome.document ∧
      ∃ e applied, applyExpanded .builtin (.ofDocument sampleStale) [.addNode sampleClaim] = .ok (e, applied) ∧
        List.Forall₂ (Node.Marks outcome.report) e.document.nodes.items outcome.document.nodes.items := by
  obtain ⟨outcome, done, committed, findings⟩ : ∃ outcome,
      applyBatch .builtin true sampleStale [.addNode sampleClaim] = .ok outcome ∧
        outcome.committed = true ∧ outcome.report.findings = [.unreachable "end"] :=
    ⟨_, rfl, rfl, rfl⟩
  obtain ⟨validated, clean, shows, settled, marked⟩ := applyBatch_annotated done committed
  exact ⟨outcome, done, committed, findings, validated, clean, shows, settled,
    marked builtin_sound sampleStale_sound (List.forall_mem_singleton.mpr sampleClaim_sound)⟩

end Flowchart
