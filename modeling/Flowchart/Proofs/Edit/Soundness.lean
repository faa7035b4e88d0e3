import Flowchart.Edit.Grammar
import Flowchart.Proofs.Document.Sound
import Flowchart.Proofs.Edit.BatchRun

/-!
# Edits keep a flowchart sound

* `Operation.Sound`: what holds of every operation that was read. `Operation.sound_of_checkList`.
* `Catalog.Sound`: new nodes of every type have sound pins and properties.
* `Operation.Effect.sound`: the effect of a sound operation on a sound flowchart is sound.
* `applyBatch_sound`: what comes of a batch of sound operations is sound.
-/

namespace Flowchart

/-! ### Operations that were read -/

/-- A node that is added whole is sound; one that is added by its type has an id. -/
structure NodeAddition.Sound (a : NodeAddition) : Prop where
  node : ∀ node, a.node.get? = some node → node.Sound
  id : a.node.get? = none → (a.id.get?.getD "").isEmpty = false
  data : (a.data.get?.getD []).Fit 1

def Operation.Sound : Operation → Prop
  | addNode a => a.Sound
  | updateNodeData _ patch => patch.Fit 1
  | setVariable v => v.Sound
  | addComment c => c.Sound
  | _ => True

/-- An addition that is not refused has the id that a new node of a type needs. -/
theorem NodeAddition.id_of_refusal {a : NodeAddition} (accepted : a.refusal? = none)
    (absent : a.node.get? = none) : (a.id.get?.getD "").isEmpty = false := by
  unfold refusal? at accepted
  rw [absent] at accepted
  cases type : a.nodeType.get? with
  | none => simp [type] at accepted
  | some t =>
    cases empty : (a.id.get?.getD "").isEmpty with
    | false => rfl
    | true => simp [type, empty] at accepted

theorem Slot.eq_value_of_get? {slot : Slot α} {a : α} (given : slot.get? = some a) :
    slot = .value a := by
  cases slot with
  | value b => exact congrArg _ (Option.some.inj given)
  | absent => cases given
  | null => cases given

namespace Operation

theorem accepted_of_checkWhole {v : Json} {a : NodeAddition} {operation : Operation}
    (accepted : checkWhole v (addNode a) = .ok operation) : a.refusal? = none := by
  simp only [checkWhole] at accepted
  split at accepted
  next => cases accepted
  next fine => exact fine

/-- The operation that a tag names was built of the fields beside the tag, and is accepted. -/
theorem check_eq_ok {v : Json} {operation : Operation} (read : Operation.check v = .ok operation) :
    ∃ fields tag names build, v = .object fields ∧ checkFields tag = some (names, build) ∧
      build ⟨fields⟩ = .ok operation ∧ checkWhole v operation = .ok operation := by
  have whole {v : Json} {built : Operation} (accepted : checkWhole v built = .ok operation) :
      built = operation := by
    unfold checkWhole at accepted
    split at accepted
    next => split at accepted <;> cases accepted; rfl
    next => cases accepted; rfl
  unfold check at read
  split at read
  next fields =>
    split at read
    next => cases read
    next tag found =>
      split at read
      next name =>
        unfold checkTagged? at read
        cases known : checkFields name with
        | none => simp [known, Checked.flaw] at read
        | some entry =>
          obtain ⟨names, build⟩ := entry
          simp only [known, Option.map_some, Option.getD_some, Checked.under_eq_ok,
            Checked.andThen_eq_ok] at read
          obtain ⟨built, made, accepted⟩ := read
          obtain ⟨fields, same, made⟩ := Check.entity_eq_ok made
          cases same
          cases whole accepted
          exact ⟨fields, name, names, build, rfl, known, made, accepted⟩
      next => cases read
  next => cases read

theorem sound_of_check {v : Json} {operation : Operation} (distinct : v.DistinctKeys)
    (read : Operation.check v = .ok operation) : operation.Sound := by
  obtain ⟨fields, tag, names, build, rfl, known, made, accepted⟩ := check_eq_ok read
  have values := (Json.distinctKeys_object.1 distinct).2
  clear read distinct
  -- one case for each tag; only nodes, properties, variables and comments carry what can be unsound
  unfold checkFields at known
  split at known
  next =>
    cases known
    simp only [Checked.seq_eq_ok, Checked.map_eq_ok] at made
    obtain ⟨_, data, ⟨_, label, ⟨_, position, ⟨_, id, ⟨_, nodeType, ⟨node, readNode, rfl⟩, -, rfl⟩, -,
      rfl⟩, -, rfl⟩, -, rfl⟩, readData, rfl⟩ := made
    refine ⟨fun inner given => ?_, NodeAddition.id_of_refusal (accepted_of_checkWhole accepted), ?_⟩
    · cases Slot.eq_value_of_get? given
      obtain ⟨field, mem, checked⟩ := Record.slot_eq_value readNode
      exact Node.sound_of_check (values field mem) checked
    · cases data with
      | value properties =>
        obtain ⟨field, mem, checked⟩ := Record.slot_eq_value readData
        exact fit_of_dictionary (values field mem) checked
      | absent => exact .nil 1
      | null => exact .nil 1
  next =>
    cases known
    obtain ⟨_, -, rfl⟩ := Checked.map_eq_ok.1 made
    trivial
  next =>
    cases known
    simp only [Checked.seq_eq_ok, Checked.map_eq_ok] at made
    obtain ⟨_, patch, ⟨node, -, rfl⟩, readPatch, rfl⟩ := made
    obtain ⟨field, mem, checked⟩ := Record.required_eq_ok readPatch
    exact fit_of_dictionary (values field mem) checked
  next =>
    cases known
    simp only [Checked.seq_eq_ok, Checked.map_eq_ok] at made
    obtain ⟨_, height, ⟨_, width, ⟨_, collapsed, ⟨_, label, ⟨node, -, rfl⟩, -, rfl⟩, -, rfl⟩, -, rfl⟩, -,
      rfl⟩ := made
    trivial
  next =>
    cases known
    simp only [Checked.seq_eq_ok, Checked.map_eq_ok] at made
    obtain ⟨_, position, ⟨node, -, rfl⟩, -, rfl⟩ := made
    trivial
  next =>
    cases known
    simp only [Checked.seq_eq_ok, Checked.map_eq_ok] at made
    obtain ⟨_, link, ⟨_, targetPin, ⟨_, targetNode, ⟨_, sourcePin, ⟨_, sourceNode, ⟨id, -, rfl⟩, -, rfl⟩,
      -, rfl⟩, -, rfl⟩, -, rfl⟩, -, rfl⟩ := made
    trivial
  next =>
    cases known
    obtain ⟨_, -, rfl⟩ := Checked.map_eq_ok.1 made
    trivial
  next =>
    cases known
    obtain ⟨var, readVar, rfl⟩ := Checked.map_eq_ok.1 made
    obtain ⟨field, mem, checked⟩ := Record.required_eq_ok readVar
    exact Variable.sound_of_check (values field mem) checked
  next =>
    cases known
    obtain ⟨_, -, rfl⟩ := Checked.map_eq_ok.1 made
    trivial
  next =>
    cases known
    obtain ⟨comment, readComment, rfl⟩ := Checked.map_eq_ok.1 made
    obtain ⟨field, mem, checked⟩ := Record.required_eq_ok readComment
    exact Comment.sound_of_check checked
  next =>
    cases known
    obtain ⟨_, -, rfl⟩ := Checked.map_eq_ok.1 made
    trivial
  next =>
    cases known
    obtain ⟨_, -, rfl⟩ := Checked.map_eq_ok.1 made
    trivial
  next => cases known

theorem sound_of_checkList {v : Json} {operations : List Operation} (distinct : v.DistinctKeys)
    (read : checkList v = .ok operations) : ∀ operation ∈ operations, operation.Sound :=
  forall_of_list read distinct fun _ _ => sound_of_check

end Operation

/-! ### New nodes of a type -/

structure NodeType.Sound (t : NodeType) : Prop where
  inputPins : ∀ pin ∈ t.inputPins, pin.Sound
  outputPins : ∀ pin ∈ t.outputPins, pin.Sound
  defaultData : t.defaultData.Fit 1

/-- What a new node of a type of the catalog starts with is sound. -/
def Catalog.Sound (catalog : Catalog) : Prop := ∀ t ∈ catalog.types, t.Sound

theorem NodeType.create_sound {t : NodeType} (sound : t.Sound) {id : String} {data : Json.Fields}
    (typed : t.id.isEmpty = false) (named : id.isEmpty = false) (fit : data.Fit 1) (position : Point)
    (label : Option String) : (t.create id position label data).Sound where
  id := named
  type := typed
  label := Look.sound_ofSlot (.value (label.getD t.name))
  data _ given := Option.some.inj given ▸ sound.defaultData.merge fit
  inputPins _ given := Option.some.inj given ▸ sound.inputPins
  outputPins _ given := Option.some.inj given ▸ sound.outputPins
  width := nofun
  height := nofun
  collapsed := nofun

/-! ### One edit -/

namespace Document.Sound

variable {d : Document}

theorem withNodes (sound : d.Sound) {nodes : Collection Node} (each : ∀ node ∈ nodes.items, node.Sound) :
    Sound { d with nodes } :=
  ⟨each, sound.connections, sound.vars, sound.comments⟩

theorem withConnections (sound : d.Sound) {connections : Collection Connection}
    (each : ∀ c ∈ connections.items, c.Sound) : Sound { d with connections } :=
  ⟨sound.nodes, each, sound.vars, sound.comments⟩

theorem withVars (sound : d.Sound) {vars : Collection Variable} (each : ∀ v ∈ vars.items, v.Sound) :
    Sound { d with vars } :=
  ⟨sound.nodes, sound.connections, each, sound.comments⟩

theorem withComments (sound : d.Sound) {comments : Collection Comment}
    (each : ∀ c ∈ comments.items, c.Sound) : Sound { d with comments } :=
  ⟨sound.nodes, sound.connections, sound.vars, each⟩

/-- An end that names a pin of a sound flowchart has ids that are not empty. -/
theorem ids_of_hasPin (sound : d.Sound) {e : End} {side : Side} {pin : Pin}
    (has : d.HasPin e side pin) : e.node.isEmpty = false ∧ e.pin.isEmpty = false := by
  obtain ⟨node, member, sameNode, pinMember, samePin⟩ := has
  have nodeSound := sound.nodes node member
  have pinSound : pin.Sound := by
    cases side with
    | input =>
      cases given : node.inputPins with
      | none => simp [Node.pins, given] at pinMember
      | some pins => exact nodeSound.inputPins pins given pin (by simpa [Node.pins, given] using pinMember)
    | output =>
      cases given : node.outputPins with
      | none => simp [Node.pins, given] at pinMember
      | some pins => exact nodeSound.outputPins pins given pin (by simpa [Node.pins, given] using pinMember)
  exact ⟨sameNode ▸ nodeSound.id, samePin ▸ pinSound.id⟩

end Document.Sound

namespace Operation

theorem change?_sound {operation : Operation} (sound : operation.Sound) {id : String}
    {change : Node → Node} (changes : operation.change? = some (id, change)) {node : Node}
    (nodeSound : node.Sound) : (change node).Sound := by
  -- a look is replaced by a given slot, or stays
  have looks {α : Type} {slot : Slot α} {look : Look α} (lookSound : look.Sound) :
      (if slot.isGiven then Look.ofSlot slot else look).Sound := by
    split
    · exact Look.sound_ofSlot slot
    · exact lookSound
  cases operation <;> simp only [change?, reduceCtorEq, Option.some.injEq, Prod.mk.injEq] at changes
  all_goals obtain ⟨rfl, rfl⟩ := changes
  case updateNodeData patch =>
    have properties : node.properties.Fit 1 := by
      cases given : node.data with
      | none => simpa [Node.properties, given] using Json.Fields.Fit.nil 1
      | some fields => simpa [Node.properties, given] using nodeSound.data fields given
    exact { nodeSound with
      data := fun _ given => Option.some.inj given ▸ Json.patchFields_fit properties sound }
  case updateNode changes =>
    exact { nodeSound with
      label := looks nodeSound.label
      width := looks nodeSound.width
      height := looks nodeSound.height
      collapsed := looks nodeSound.collapsed }
  case moveNode => exact { nodeSound with }

theorem Effect.sound {catalog : Catalog} (templates : catalog.Sound) {d after : Document}
    {operation recorded : Operation} (effect : Effect catalog d operation after recorded)
    (opSound : operation.Sound) (sound : d.Sound) : after.Sound := by
  have grown {α : Type} {P : α → Prop} {items : List α} {a : α} (each : ∀ b ∈ items, P b) (new : P a) :
      ∀ b ∈ items ++ [a], P b :=
    List.forall_mem_append.2 ⟨each, List.forall_mem_singleton.2 new⟩
  cases effect with
  | addNode given _ => exact sound.withNodes (grown sound.nodes (opSound.node _ given))
  | addTypedNode absent known named _ =>
    exact sound.withNodes (grown sound.nodes
      (NodeType.create_sound (templates _ known) named (opSound.id absent) opSound.data _ _))
  | removeNode _ => exact sound.withNodes fun node mem => sound.nodes node (List.mem_of_mem_filter mem)
  | changeNode changes present _ =>
    refine sound.withNodes fun other mem => ?_
    obtain mem | rfl := List.mem_or_eq_of_mem_set mem
    · exact sound.nodes other mem
    · exact change?_sound opSound changes (sound.nodes _ (List.mem_of_getElem? present))
  | addConnection source target named produces consumes _ _ _ =>
    obtain ⟨sourceNode, sourcePin⟩ := sound.ids_of_hasPin produces
    obtain ⟨targetNode, targetPin⟩ := sound.ids_of_hasPin consumes
    exact sound.withConnections
      (grown sound.connections ⟨named, sourceNode, sourcePin, targetNode, targetPin⟩)
  | removeConnection _ _ =>
    exact sound.withConnections fun c mem => sound.connections c (List.mem_of_mem_eraseIdx mem)
  | setVariable _ =>
    refine sound.withVars fun v mem => ?_
    obtain rfl | mem := Editor.mem_putVariable mem
    · exact opSound
    · exact sound.vars v mem
  | removeVariable _ => exact sound.withVars fun v mem => sound.vars v (List.mem_of_mem_filter mem)
  | addComment _ => exact sound.withComments (grown sound.comments opSound)
  | removeComment _ => exact sound.withComments fun c mem => sound.comments c (List.mem_of_mem_filter mem)
  | setViewport => exact ⟨sound.nodes, sound.connections, sound.vars, sound.comments⟩

end Operation

/-! ### A whole batch -/

/-- What may stand between two steps of a batch of sound operations on a sound flowchart. -/
structure BatchState.Sound (s : BatchState) : Prop where
  indexed : s.editor.Indexed
  document : s.editor.document.Sound
  expanded : ∀ operation ∈ s.expanded, operation.Sound
  waiting : ∀ operation ∈ s.waiting, operation.Sound

/-- What holds of an operation and of every removal of a connection holds of what the operation stands
for. -/
theorem Operation.forall_expand {P : Operation → Prop} (e : Editor) {operation : Operation}
    (itself : P operation) (removal : ∀ connection, P (.removeConnection connection)) :
    ∀ other ∈ operation.expand e, P other := by
  have alone := List.forall_mem_singleton.2 itself
  unfold expand
  split
  next node =>
    split
    · exact List.forall_mem_append.2 ⟨List.forall_mem_map.2 fun _ _ => removal _, alone⟩
    · exact alone
  next => exact alone

theorem Operation.expand_sound {e : Editor} {operation : Operation} (sound : operation.Sound) :
    ∀ other ∈ operation.expand e, other.Sound :=
  forall_expand e sound fun _ => trivial

theorem BatchState.Step.sound {catalog : Catalog} (templates : catalog.Sound) {s t : BatchState}
    (step : Step catalog s t) (sound : s.Sound) : t.Sound := by
  cases step with
  | expand =>
    obtain ⟨first, rest⟩ := List.forall_mem_cons.1 sound.waiting
    exact ⟨sound.indexed, sound.document, Operation.expand_sound first, rest⟩
  | apply applied =>
    obtain ⟨effect, indexed⟩ := Operation.effect_of_applyTo sound.indexed applied
    obtain ⟨first, rest⟩ := List.forall_mem_cons.1 sound.expanded
    exact ⟨indexed, effect.sound templates first sound.document, rest, sound.waiting⟩

theorem BatchState.Reaches.sound {catalog : Catalog} (templates : catalog.Sound) {s t : BatchState}
    (reaches : Reaches catalog s t) (sound : s.Sound) : t.Sound := by
  induction reaches with
  | refl => exact sound
  | tail _ step ih => exact step.sound templates ih

theorem applyExpanded_sound {catalog : Catalog} (templates : catalog.Sound) {d : Document}
    (sound : d.Sound) {operations : List Operation} (each : ∀ operation ∈ operations, operation.Sound)
    {e : Editor} {applied : List Operation}
    (done : applyExpanded catalog (.ofDocument d) operations = .ok (e, applied)) :
    e.document.Sound := by
  have initial : (BatchState.initial d operations).Sound :=
    { indexed := Editor.indexed_ofDocument d
      document := sound
      expanded := fun _ mem => absurd mem List.not_mem_nil
      waiting := each }
  have reaches := BatchState.reaches_of_applyExpanded done
  exact (reaches.sound templates initial).document

/-- Findings on a node are of no concern to its soundness. -/
theorem annotateNode_sound (r : Report) {node : Node} (sound : node.Sound) :
    (annotateNode r node).Sound := by
  unfold annotateNode
  dsimp only
  split
  · split
    · exact { sound with }
    · exact sound
  · exact { sound with }

theorem annotate_sound (r : Report) {d : Document} (sound : d.Sound) : (annotate r d).Sound :=
  sound.withNodes (List.forall_mem_map.2 fun node mem => annotateNode_sound r (sound.nodes node mem))

/-- What comes of a batch of sound operations on a sound flowchart is sound. -/
theorem applyBatch_sound {catalog : Catalog} (templates : catalog.Sound) {annotates : Bool}
    {d : Document} (sound : d.Sound) {operations : List Operation}
    (each : ∀ operation ∈ operations, operation.Sound) {outcome : Outcome}
    (done : applyBatch catalog annotates d operations = .ok outcome) : outcome.document.Sound := by
  obtain ⟨e, applied, expanded, -, -, -, document⟩ := applyBatch_eq_ok done
  have after := applyExpanded_sound templates sound each expanded
  rw [document]
  split
  · split
    · exact annotate_sound _ after
    · exact after
  · exact sound

/-! ### The built-in types -/

/-- Whether a pin has an id, a name and no default but a string or an integer. -/
def Pin.isPlain (pin : Pin) : Bool :=
  !pin.id.isEmpty && !pin.name.isEmpty && match pin.defaultValue with
    | none | some (.string _) | some (.int _) => true
    | _ => false

theorem Pin.sound_of_isPlain {pin : Pin} (plain : pin.isPlain = true) : pin.Sound := by
  unfold isPlain at plain
  simp only [Bool.and_eq_true, Bool.not_eq_true'] at plain
  obtain ⟨⟨id, name⟩, fallback⟩ := plain
  refine ⟨id, name, fun v given => ?_⟩
  rw [given] at fallback
  cases v with
  | string s => exact ⟨rfl, trivial⟩
  | int n => exact ⟨rfl, trivial⟩
  | null => cases fallback
  | bool b => cases fallback
  | double x => cases fallback
  | array items => cases fallback
  | object fields => cases fallback

theorem builtin_sound : Catalog.builtin.Sound := by
  have plain (t : NodeType) (pins : (t.inputPins ++ t.outputPins).all Pin.isPlain = true)
      (bare : t.defaultData = []) : t.Sound := by
    rw [List.all_eq_true, List.forall_mem_append] at pins
    exact ⟨fun pin mem => Pin.sound_of_isPlain (pins.1 pin mem),
      fun pin mem => Pin.sound_of_isPlain (pins.2 pin mem), bare ▸ .nil 1⟩
  intro t member
  simp only [Catalog.builtin, List.mem_cons, List.not_mem_nil, or_false] at member
  rcases member with rfl | rfl | rfl | rfl | rfl | rfl | rfl
  all_goals exact plain _ (by decide) rfl

end Flowchart
