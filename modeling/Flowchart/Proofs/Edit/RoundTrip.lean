import Flowchart.Proofs.Document.RoundTrip
import Flowchart.Proofs.Edit.Soundness

/-!
# Reading operations back

* `Operation.Admitted`: what holds of the operations that the grammar accepts, and of those that a batch
  records.
* `Operation.layout`: an operation is written with its tag and the fields it was given.
* `Operation.check_toJson`, `Operation.checkList_listToJson`: admitted operations are read back from what
  they are written as.
* `Operation.checkList_applied`: so are operations that came in, and the record of every batch of them.
-/

namespace Flowchart

open Json (Fields)

variable {operation : Operation}

namespace Operation

/-- An operation whose parts are sound and that is not refused as a whole. -/
structure Admitted (operation : Operation) : Prop where
  sound : operation.Sound
  accepted : ∀ v, checkWhole v operation = .ok operation

/-- Nothing but an addition is ever refused. -/
theorem checkWhole_eq_ok_iff {v : Json} :
    checkWhole v operation = .ok operation ↔ ∀ a, operation = .addNode a → a.refusal? = none := by
  constructor
  · rintro accepted a rfl
    exact accepted_of_checkWhole accepted
  · intro fine
    cases operation with
    | addNode a => simp only [checkWhole, fine a rfl]
    | _ => rfl

theorem admitted_of_check {v : Json} (distinct : v.DistinctKeys) (read : check v = .ok operation) :
    operation.Admitted := by
  obtain ⟨_, _, _, _, -, -, -, accepted⟩ := check_eq_ok read
  exact ⟨sound_of_check distinct read, fun _ => checkWhole_eq_ok_iff.2 (checkWhole_eq_ok_iff.1 accepted)⟩

theorem admitted_of_checkList {v : Json} {operations : List Operation} (distinct : v.DistinctKeys)
    (read : checkList v = .ok operations) : ∀ operation ∈ operations, operation.Admitted :=
  forall_of_list read distinct fun _ _ => admitted_of_check

theorem admitted_removeConnection (id : String) : (removeConnection id).Admitted := ⟨trivial, fun _ => rfl⟩

theorem admitted_addConnection (j : Joining) : (addConnection j).Admitted := ⟨trivial, fun _ => rfl⟩

/-! ### How an operation is written -/

/-- The fields of an operation besides its tag, with the values that they are written as. -/
def entries : Operation → List (FieldName × Option Json)
  | addNode a =>
    [(.node, a.node.json? Node.toJson), (.nodeType, a.nodeType.json? .string),
      (.id, a.id.json? .string), (.position, a.position.json? Point.toJson),
      (.label, a.label.json? .string), (.data, a.data.json? .object)]
  | removeNode node => [(.nodeId, some (.string node))]
  | updateNodeData node patch => [(.nodeId, some (.string node)), (.patch, some (.object patch))]
  | updateNode node changes =>
    [(.nodeId, some (.string node)), (.label, changes.label.json? .string),
      (.collapsed, changes.collapsed.json? .bool), (.width, changes.width.json? .double),
      (.height, changes.height.json? .double)]
  | moveNode node position => [(.nodeId, some (.string node)), (.position, some position.toJson)]
  | addConnection j =>
    [(.id, j.id.json? .string), (.fromNodeId, some (.string j.source.node)),
      (.fromPinId, some (.string j.source.pin)), (.toNodeId, some (.string j.target.node)),
      (.toPinId, some (.string j.target.pin)), (.type, j.link.json? fun link => .string link.name)]
  | removeConnection connection => [(.connectionId, some (.string connection))]
  | setVariable v => [(.variableField, some v.toJson)]
  | removeVariable id => [(.variableId, some (.string id))]
  | addComment comment => [(.comment, some comment.toJson)]
  | removeComment id => [(.commentId, some (.string id))]
  | setViewport viewport => [(.viewport, viewport.json? Viewport.toJson)]

/-- The fields of an operation with its tag. -/
def tagged (operation : Operation) : Fields := ("op", .string operation.name) :: operation.fields

/-- The spellings of the fields beside a tag are apart from one another and from the tag. -/
theorem spellings {tag : String} {names : List FieldName} {build : Record → Checked Operation}
    (known : checkFields tag = some (names, build)) :
    ((FieldName.op :: names).map FieldName.wire).Nodup ∧
      ∀ name ∈ FieldName.op :: names, name.alternate = name.wire ∨
        name.alternate ∉ (FieldName.op :: names).map FieldName.wire := by
  unfold checkFields at known
  split at known <;> cases known
  all_goals exact ⟨by decide, by decide⟩

theorem layout {names : List FieldName} {build : Record → Checked Operation}
    (known : checkFields operation.name = some (names, build)) :
    Layout (.op :: names) ((.op, some (.string operation.name)) :: operation.entries)
      operation.tagged where
  written := by
    refine .of_eq ?_
    cases operation <;> simp only [tagged, fields, entries, Fields.given_field, Fields.given_slot,
      Fields.given_nil, List.append_assoc, List.append_nil, List.cons_append, List.nil_append] <;> rfl
  listed := by cases operation <;> cases known <;> rfl
  distinct := (spellings known).1
  apart := (spellings known).2

/-! ### One operation -/

section Fields

variable {names : List FieldName} {build : Record → Checked Operation} {name : FieldName}
  {check : Json → Checked α}

/-- A field that every operation of a kind has is read back if its value is. -/
theorem required_tagged {a : α} (v : Json) (known : checkFields operation.name = some (names, build))
    (mem : (name, some v) ∈ operation.entries) (checked : check v = .ok a) :
    Record.required ⟨operation.tagged⟩ name check = .ok a :=
  (layout known).required (List.mem_cons_of_mem _ mem) checked

/-- A field that may be left out is read back absent, null or with its value, as it was given. -/
theorem slot_tagged {slot : Slot α} (write : α → Json)
    (known : checkFields operation.name = some (names, build))
    (mem : (name, slot.json? write) ∈ operation.entries)
    (checked : ∀ a, slot = .value a → write a ≠ .null ∧ check (write a) = .ok a) :
    Record.slot ⟨operation.tagged⟩ name check = .ok slot :=
  (layout known).slot write (List.mem_cons_of_mem _ mem) checked

theorem slot_text {slot : Slot String} (known : checkFields operation.name = some (names, build))
    (mem : (name, slot.json? .string) ∈ operation.entries) :
    Record.slot ⟨operation.tagged⟩ name Check.text = .ok slot :=
  slot_tagged .string known mem fun _ _ => ⟨nofun, rfl⟩

end Fields

/-- Properties that fit below a level are read back there. -/
theorem dictionary_read {fields : Fields} {level : Nat} (fit : Fields.Fit level fields) :
    Check.dictionary level (.object fields) = .ok fields :=
  Check.dictionary_eq_ok_iff.2 ⟨rfl, fun field mem => (fit.values field mem).shallow⟩

/-- The fields of a sound operation are read back. -/
theorem fields_read (sound : operation.Sound) : ∃ names build,
    checkFields operation.name = some (names, build) ∧ build ⟨operation.tagged⟩ = .ok operation := by
  cases operation with
  | addNode a =>
    have node : Record.slot ⟨(addNode a).tagged⟩ .node Node.check = .ok a.node :=
      slot_tagged Node.toJson rfl (by simp [entries]) fun node given =>
        ⟨nofun, Node.check_toJson (sound.node node (given ▸ rfl))⟩
    have nodeType : Record.slot ⟨(addNode a).tagged⟩ .nodeType Check.text = .ok a.nodeType :=
      slot_text rfl (by simp [entries])
    have id : Record.slot ⟨(addNode a).tagged⟩ .id Check.text = .ok a.id :=
      slot_text rfl (by simp [entries])
    have position : Record.slot ⟨(addNode a).tagged⟩ .position Point.check = .ok a.position :=
      slot_tagged Point.toJson rfl (by simp [entries]) fun _ _ => ⟨nofun, rfl⟩
    have label : Record.slot ⟨(addNode a).tagged⟩ .label Check.text = .ok a.label :=
      slot_text rfl (by simp [entries])
    have data : Record.slot ⟨(addNode a).tagged⟩ .data (Check.dictionary 1) = .ok a.data :=
      slot_tagged .object rfl (by simp [entries]) fun fields given =>
        ⟨nofun, dictionary_read (by simpa [given, Slot.get?] using sound.data)⟩
    refine ⟨_, _, rfl, ?_⟩
    simp only [node, nodeType, id, position, label, data]
    rfl
  | updateNodeData node patch =>
    have nodeId : Record.required ⟨(updateNodeData node patch).tagged⟩ .nodeId Check.text = .ok node :=
      required_tagged (.string node) rfl (by simp [entries]) rfl
    have properties : Record.required ⟨(updateNodeData node patch).tagged⟩ .patch (Check.dictionary 1) =
        .ok patch :=
      required_tagged (.object patch) rfl (by simp [entries]) (dictionary_read sound)
    refine ⟨_, _, rfl, ?_⟩
    simp only [nodeId, properties]
    rfl
  | updateNode node changes =>
    have nodeId : Record.required ⟨(updateNode node changes).tagged⟩ .nodeId Check.text = .ok node :=
      required_tagged (.string node) rfl (by simp [entries]) rfl
    have label : Record.slot ⟨(updateNode node changes).tagged⟩ .label Check.text = .ok changes.label :=
      slot_text rfl (by simp [entries])
    have collapsed :
        Record.slot ⟨(updateNode node changes).tagged⟩ .collapsed Check.flag = .ok changes.collapsed :=
      slot_tagged .bool rfl (by simp [entries]) fun _ _ => ⟨nofun, rfl⟩
    have width : Record.slot ⟨(updateNode node changes).tagged⟩ .width Check.number = .ok changes.width :=
      slot_tagged .double rfl (by simp [entries]) fun _ _ => ⟨nofun, rfl⟩
    have height :
        Record.slot ⟨(updateNode node changes).tagged⟩ .height Check.number = .ok changes.height :=
      slot_tagged .double rfl (by simp [entries]) fun _ _ => ⟨nofun, rfl⟩
    refine ⟨_, _, rfl, ?_⟩
    simp only [nodeId, label, collapsed, width, height]
    rfl
  | moveNode node position =>
    have nodeId : Record.required ⟨(moveNode node position).tagged⟩ .nodeId Check.text = .ok node :=
      required_tagged (.string node) rfl (by simp [entries]) rfl
    have point : Record.required ⟨(moveNode node position).tagged⟩ .position Point.check = .ok position :=
      required_tagged position.toJson rfl (by simp [entries]) rfl
    refine ⟨_, _, rfl, ?_⟩
    simp only [nodeId, point]
    rfl
  | addConnection j =>
    have id : Record.slot ⟨(addConnection j).tagged⟩ .id Check.text = .ok j.id :=
      slot_text rfl (by simp [entries])
    have sourceNode :
        Record.required ⟨(addConnection j).tagged⟩ .fromNodeId Check.text = .ok j.source.node :=
      required_tagged (.string j.source.node) rfl (by simp [entries]) rfl
    have sourcePin :
        Record.required ⟨(addConnection j).tagged⟩ .fromPinId Check.text = .ok j.source.pin :=
      required_tagged (.string j.source.pin) rfl (by simp [entries]) rfl
    have targetNode :
        Record.required ⟨(addConnection j).tagged⟩ .toNodeId Check.text = .ok j.target.node :=
      required_tagged (.string j.target.node) rfl (by simp [entries]) rfl
    have targetPin :
        Record.required ⟨(addConnection j).tagged⟩ .toPinId Check.text = .ok j.target.pin :=
      required_tagged (.string j.target.pin) rfl (by simp [entries]) rfl
    have link : Record.slot ⟨(addConnection j).tagged⟩ .type Link.check = .ok j.link :=
      slot_tagged (fun link => .string link.name) rfl (by simp [entries]) fun _ _ => ⟨nofun, Link.check_name _⟩
    refine ⟨_, _, rfl, ?_⟩
    simp only [id, sourceNode, sourcePin, targetNode, targetPin, link]
    rfl
  -- the other operations have one field
  | removeNode _ | removeConnection _ | removeVariable _ | removeComment _ =>
    exact ⟨_, _, rfl, Checked.map_eq_ok.2 ⟨_, required_tagged _ rfl List.mem_cons_self rfl, rfl⟩⟩
  | setVariable v =>
    have read := Variable.check_toJson sound
    exact ⟨_, _, rfl, Checked.map_eq_ok.2 ⟨v, required_tagged _ rfl List.mem_cons_self read, rfl⟩⟩
  | addComment comment =>
    have read := Comment.check_toJson sound
    exact ⟨_, _, rfl, Checked.map_eq_ok.2 ⟨comment, required_tagged _ rfl List.mem_cons_self read, rfl⟩⟩
  | setViewport viewport =>
    have read : Record.slot ⟨(setViewport viewport).tagged⟩ .viewport Viewport.check = .ok viewport :=
      slot_tagged Viewport.toJson rfl List.mem_cons_self fun v _ => ⟨nofun, v.check_toJson⟩
    exact ⟨_, _, rfl, Checked.map_eq_ok.2 ⟨viewport, read, rfl⟩⟩

/-- An admitted operation is read back from what it is written as. -/
theorem check_toJson (admitted : operation.Admitted) : check operation.toJson = .ok operation := by
  obtain ⟨names, build, known, read⟩ := fields_read admitted.sound
  have whole := (layout known).entity read operation.name
  have named : checkTagged? operation.name operation.tagged = some (.ok operation) := by
    simp only [checkTagged?, known, Option.map_some, whole, Checked.andThen,
      admitted.accepted (.object operation.tagged), Checked.under]
  have first : Fields.get? "op" operation.tagged = some (.string operation.name) := rfl
  change check (.object operation.tagged) = .ok operation
  simp only [check, first, named, Option.getD_some]

/-- Admitted operations are read back in their order. -/
theorem checkList_listToJson {operations : List Operation}
    (each : ∀ operation ∈ operations, operation.Admitted) :
    checkList (listToJson operations) = .ok operations :=
  Check.list_map fun operation mem => check_toJson (each operation mem)

/-! ### What a batch records -/

variable {catalog : Catalog} {e after : Editor} {recorded : Operation}

/-- An operation is recorded as it is, except for the choices that were made for a connection. -/
theorem recorded_of_applyTo (applied : operation.applyTo catalog e = .ok (after, recorded)) :
    recorded = operation ∨ ∃ j, recorded = .addConnection j := by
  cases operation with
  | addConnection j =>
    obtain ⟨⟨edited, c⟩, -, same⟩ := map_eq_ok_iff.1 applied
    cases same
    exact .inr ⟨_, rfl⟩
  | addNode a =>
    unfold applyTo at applied
    dsimp only at applied
    split at applied
    all_goals
      obtain ⟨_, -, same⟩ := map_eq_ok_iff.1 applied
      cases same
      exact .inl rfl
  | setViewport viewport =>
    cases applied
    exact .inl rfl
  | _ =>
    obtain ⟨_, -, same⟩ := map_eq_ok_iff.1 applied
    cases same
    exact .inl rfl

theorem Admitted.applyTo (admitted : operation.Admitted)
    (applied : operation.applyTo catalog e = .ok (after, recorded)) : recorded.Admitted := by
  obtain rfl | ⟨j, rfl⟩ := recorded_of_applyTo applied
  · exact admitted
  · exact admitted_addConnection j

theorem Admitted.expand (admitted : operation.Admitted) (e : Editor) :
    ∀ other ∈ operation.expand e, other.Admitted :=
  forall_expand e admitted admitted_removeConnection

end Operation

variable {catalog : Catalog} {e after : Editor} {operations applied : List Operation}

theorem applyAll_admitted (each : ∀ operation ∈ operations, operation.Admitted)
    (done : applyAll catalog e operations = .ok (after, applied)) :
    ∀ operation ∈ applied, operation.Admitted := by
  induction operations generalizing e applied with
  | nil =>
    cases done
    exact List.forall_mem_nil _
  | cons operation rest ih =>
    obtain ⟨first, each⟩ := List.forall_mem_cons.1 each
    obtain ⟨next, recorded, others, here, there, rfl⟩ :=
      BatchState.applyAll_cons_eq_ok_iff.1 done
    exact List.forall_mem_cons.2 ⟨first.applyTo here, ih each there⟩

/-- Operations stay admitted when they are expanded, applied and recorded. -/
theorem applyExpanded_admitted (each : ∀ operation ∈ operations, operation.Admitted)
    (done : applyExpanded catalog e operations = .ok (after, applied)) :
    ∀ operation ∈ applied, operation.Admitted := by
  induction operations generalizing e applied with
  | nil =>
    cases done
    exact List.forall_mem_nil _
  | cons operation rest ih =>
    obtain ⟨first, each⟩ := List.forall_mem_cons.1 each
    obtain ⟨next, recorded, others, here, there, rfl⟩ :=
      BatchState.applyExpanded_cons_eq_ok_iff.1 done
    exact List.forall_mem_append.2 ⟨applyAll_admitted (first.expand e) here, ih each there⟩

/-- Operations that came in are read back from what they are written as, and so are the operations that a
batch of them records, whatever comes of it. -/
theorem Operation.checkList_applied {raw : Json} (distinct : raw.DistinctKeys)
    (read : checkList raw = .ok operations) :
    checkList (listToJson operations) = .ok operations ∧
      ∀ catalog annotates d outcome, applyBatch catalog annotates d operations = .ok outcome →
        checkList (listToJson outcome.applied) = .ok outcome.applied := by
  have each := admitted_of_checkList distinct read
  refine ⟨checkList_listToJson each, fun catalog annotates d outcome done => ?_⟩
  obtain ⟨e, applied, expanded, -, same, -⟩ := applyBatch_eq_ok done
  rw [same]
  exact checkList_listToJson (applyExpanded_admitted each expanded)

/-- A batch as it comes in: a label that is null, a patch, a node that goes with its connections, and a
connection without an id. -/
def sampleRequest : Json :=
  .array [
    .object [("op", .string "update_node"), ("node_id", .string "note"), ("label", .null),
      ("collapsed", .bool true)],
    .object [("op", .string "update_node_data"), ("nodeId", .string "note"),
      ("patch", .object [("text", .null), ("amount", .int 3)])],
    .object [("op", .string "remove_node"), ("nodeId", .string "wait")],
    .object [("op", .string "add_node"), ("nodeType", .string "delay"), ("id", .string "later")],
    .object [("op", .string "add_connection"), ("fromNodeId", .string "start"),
      ("fromPinId", .string "exec-out"), ("toNodeId", .string "later"), ("toPinId", .string "exec-in")]]

theorem Operation.checkList_applied_sample : ∃ operations outcome,
    sampleRequest.DistinctKeys ∧ checkList sampleRequest = .ok operations ∧
      applyBatch .builtin true sampleFlowchart operations = .ok outcome ∧
      outcome.applied.map Operation.name = ["update_node", "update_node_data", "remove_connection",
        "remove_connection", "remove_node", "add_node", "add_connection"] ∧
      checkList (listToJson operations) = .ok operations ∧
      checkList (listToJson outcome.applied) = .ok outcome.applied := by
  have distinct : sampleRequest.DistinctKeys := by
    simp [sampleRequest, Json.DistinctKeys, Json.ItemsDistinct, Json.FieldsDistinct, Json.Fields.keys]
  let operations : List Operation :=
    [.updateNode "note" { label := .null, collapsed := .value true },
      .updateNodeData "note" [("text", .null), ("amount", .int 3)], .removeNode "wait",
      .addNode { nodeType := .value "delay", id := .value "later" },
      .addConnection { source := ⟨"start", "exec-out"⟩, target := ⟨"later", "exec-in"⟩ }]
  have read : checkList sampleRequest = .ok operations := rfl
  obtain ⟨outcome, done, recorded⟩ : ∃ outcome,
      applyBatch .builtin true sampleFlowchart operations = .ok outcome ∧
        outcome.applied.map Operation.name = ["update_node", "update_node_data", "remove_connection",
          "remove_connection", "remove_node", "add_node", "add_connection"] := ⟨_, rfl, rfl⟩
  obtain ⟨back, again⟩ := checkList_applied distinct read
  exact ⟨operations, outcome, distinct, read, done, recorded, back, again _ _ _ _ done⟩

end Flowchart
