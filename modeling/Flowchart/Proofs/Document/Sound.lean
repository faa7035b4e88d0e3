import Flowchart.Document.Codec
import Flowchart.Proofs.Json.Fits
import Flowchart.Proofs.Json.Keys
import Flowchart.Proofs.Document.Layout

/-!
# What is true of every flowchart that was read

* `Document.Sound`: names and ids are not empty, free values fit, and every look is of its own kind.
* `Document.sound_of_read`: a payload is read as a sound flowchart.
-/

namespace Flowchart

/-! ### Sound parts -/

structure Pin.Sound (pin : Pin) : Prop where
  id : pin.id.isEmpty = false
  name : pin.name.isEmpty = false
  defaultValue : ∀ v, pin.defaultValue = some v → v.Fits 2

structure Node.Sound (node : Node) : Prop where
  id : node.id.isEmpty = false
  type : node.type.isEmpty = false
  label : node.label.Sound
  data : ∀ fields, node.data = some fields → fields.Fit 1
  inputPins : ∀ pins, node.inputPins = some pins → ∀ pin ∈ pins, pin.Sound
  outputPins : ∀ pins, node.outputPins = some pins → ∀ pin ∈ pins, pin.Sound
  width : node.width.Sound
  height : node.height.Sound
  collapsed : node.collapsed.Sound

structure Connection.Sound (c : Connection) : Prop where
  id : c.id.isEmpty = false
  sourceNode : c.source.node.isEmpty = false
  sourcePin : c.source.pin.isEmpty = false
  targetNode : c.target.node.isEmpty = false
  targetPin : c.target.pin.isEmpty = false

structure Variable.Sound (v : Variable) : Prop where
  id : v.id.isEmpty = false
  name : v.name.isEmpty = false
  defaultValue : ∀ value, v.defaultValue = some value → value.Fits 1

structure Comment.Sound (c : Comment) : Prop where
  id : c.id.isEmpty = false

structure Document.Sound (d : Document) : Prop where
  nodes : ∀ node ∈ d.nodes.items, node.Sound
  connections : ∀ c ∈ d.connections.items, c.Sound
  vars : ∀ v ∈ d.vars.items, v.Sound
  comments : ∀ c ∈ d.comments.items, c.Sound

/-! ### What is read is sound -/

theorem isEmpty_of_name {v : Json} {s : String} (named : Check.name v = .ok s) :
    s.isEmpty = false := by
  unfold Check.name at named
  split at named
  next =>
    split at named
    next => cases named
    next filled => cases named; simpa using filled
  next => cases named

/-- Items of a list are sound if they are when read one by one. -/
theorem forall_of_list {check : Json → Checked α} {P : α → Prop} {v : Json} {values : List α}
    (read : Check.list check v = .ok values) (distinct : v.DistinctKeys)
    (each : ∀ item a, item.DistinctKeys → check item = .ok a → P a) : ∀ a ∈ values, P a := by
  unfold Check.list at read
  split at read
  next items =>
    have all := Checked.items_eq_ok.1 read
    replace distinct := Json.distinctKeys_array.1 distinct
    clear read
    induction all with
    | nil => simp
    | cons head tail ih =>
      obtain ⟨first, rest⟩ := List.forall_mem_cons.1 distinct
      exact List.forall_mem_cons.2 ⟨each _ _ first head, ih rest⟩
  next => cases read

theorem Pin.sound_of_check {v : Json} {pin : Pin} (distinct : v.DistinctKeys)
    (checked : Pin.check v = .ok pin) : pin.Sound := by
  obtain ⟨fields, rfl, built⟩ := Check.entity_eq_ok checked
  have values := (Json.distinctKeys_object.1 distinct).2
  simp only [Checked.seq_eq_ok, Checked.map_eq_ok] at built
  obtain ⟨_, description, ⟨_, required, ⟨_, fallback, ⟨_, kind, ⟨_, name, ⟨id, readId, rfl⟩, readName,
    rfl⟩, -, rfl⟩, readFallback, rfl⟩, -, rfl⟩, -, rfl⟩ := built
  obtain ⟨_, -, named⟩ := Record.required_eq_ok readId
  obtain ⟨_, -, called⟩ := Record.required_eq_ok readName
  refine ⟨isEmpty_of_name named, isEmpty_of_name called, ?_⟩
  rintro value rfl
  obtain ⟨field, mem, free⟩ := Record.optional_eq_some readFallback
  obtain ⟨shallow, rfl⟩ := Check.any_eq_ok_iff.1 free
  exact ⟨shallow, values field mem⟩

theorem Node.sound_of_check {v : Json} {node : Node} (distinct : v.DistinctKeys)
    (checked : Node.check v = .ok node) : node.Sound := by
  obtain ⟨fields, rfl, built⟩ := Check.entity_eq_ok checked
  have values := (Json.distinctKeys_object.1 distinct).2
  simp only [Checked.seq_eq_ok, Checked.map_eq_ok] at built
  -- the fields that were read, the last one first
  obtain ⟨_, warnings, ⟨_, errors, ⟨_, collapsed, ⟨_, height, ⟨_, width, ⟨_, outputPins, ⟨_, inputPins,
    ⟨_, data, ⟨_, label, ⟨_, position, ⟨_, type, ⟨id, readId, rfl⟩, readType, rfl⟩, -, rfl⟩,
    ⟨label, -, rfl⟩, rfl⟩, readData, rfl⟩, readInputs, rfl⟩, readOutputs, rfl⟩, ⟨width, -, rfl⟩, rfl⟩,
    ⟨height, -, rfl⟩, rfl⟩, ⟨collapsed, -, rfl⟩, rfl⟩, -, rfl⟩, -, rfl⟩ := built
  obtain ⟨_, -, named⟩ := Record.required_eq_ok readId
  obtain ⟨_, -, typed⟩ := Record.required_eq_ok readType
  refine
    { id := isEmpty_of_name named
      type := isEmpty_of_name typed
      label := Look.sound_ofSlot label
      data := ?_
      inputPins := ?_
      outputPins := ?_
      width := Look.sound_ofSlot width
      height := Look.sound_ofSlot height
      collapsed := Look.sound_ofSlot collapsed }
  · rintro properties rfl
    obtain ⟨field, mem, free⟩ := Record.optional_eq_some readData
    exact fit_of_dictionary (values field mem) free
  · rintro pins rfl
    obtain ⟨field, mem, each⟩ := Record.optional_eq_some readInputs
    exact forall_of_list each (values field mem) fun _ _ => Pin.sound_of_check
  · rintro pins rfl
    obtain ⟨field, mem, each⟩ := Record.optional_eq_some readOutputs
    exact forall_of_list each (values field mem) fun _ _ => Pin.sound_of_check

theorem Connection.sound_of_check {v : Json} {c : Connection} (checked : Connection.check v = .ok c) :
    c.Sound := by
  obtain ⟨fields, rfl, built⟩ := Check.entity_eq_ok checked
  simp only [Checked.seq_eq_ok, Checked.map_eq_ok] at built
  obtain ⟨_, link, ⟨_, targetPin, ⟨_, targetNode, ⟨_, sourcePin, ⟨_, sourceNode, ⟨id, readId, rfl⟩,
    readSourceNode, rfl⟩, readSourcePin, rfl⟩, readTargetNode, rfl⟩, readTargetPin, rfl⟩, -, rfl⟩ := built
  obtain ⟨_, -, named⟩ := Record.required_eq_ok readId
  obtain ⟨_, -, sourceNode⟩ := Record.required_eq_ok readSourceNode
  obtain ⟨_, -, sourcePin⟩ := Record.required_eq_ok readSourcePin
  obtain ⟨_, -, targetNode⟩ := Record.required_eq_ok readTargetNode
  obtain ⟨_, -, targetPin⟩ := Record.required_eq_ok readTargetPin
  exact ⟨isEmpty_of_name named, isEmpty_of_name sourceNode, isEmpty_of_name sourcePin,
    isEmpty_of_name targetNode, isEmpty_of_name targetPin⟩

theorem Variable.sound_of_check {v : Json} {var : Variable} (distinct : v.DistinctKeys)
    (checked : Variable.check v = .ok var) : var.Sound := by
  obtain ⟨fields, rfl, built⟩ := Check.entity_eq_ok checked
  have values := (Json.distinctKeys_object.1 distinct).2
  simp only [Checked.seq_eq_ok, Checked.map_eq_ok] at built
  obtain ⟨_, description, ⟨_, fallback, ⟨_, kind, ⟨_, name, ⟨id, readId, rfl⟩, readName, rfl⟩, -, rfl⟩,
    readFallback, rfl⟩, -, rfl⟩ := built
  obtain ⟨_, -, named⟩ := Record.required_eq_ok readId
  obtain ⟨_, -, called⟩ := Record.required_eq_ok readName
  refine ⟨isEmpty_of_name named, isEmpty_of_name called, ?_⟩
  rintro value rfl
  obtain ⟨field, mem, free⟩ := Record.optional_eq_some readFallback
  obtain ⟨shallow, rfl⟩ := Check.any_eq_ok_iff.1 free
  exact ⟨shallow, values field mem⟩

theorem Comment.sound_of_check {v : Json} {c : Comment} (checked : Comment.check v = .ok c) :
    c.Sound := by
  obtain ⟨fields, rfl, built⟩ := Check.entity_eq_ok checked
  simp only [Checked.seq_eq_ok, Checked.map_eq_ok] at built
  obtain ⟨_, nodeIds, ⟨_, color, ⟨_, text, ⟨_, size, ⟨_, position, ⟨id, readId, rfl⟩, -, rfl⟩, -, rfl⟩,
    -, rfl⟩, -, rfl⟩, -, rfl⟩ := built
  obtain ⟨_, -, named⟩ := Record.required_eq_ok readId
  exact ⟨isEmpty_of_name named⟩

theorem Collection.forall_ofRead {r : Record} {name : FieldName} {check : Json → Checked α}
    {P : α → Prop} {read : Option (List α)} (values : ∀ field ∈ r.fields, field.2.DistinctKeys)
    (optional : r.optional name (Check.list check) = .ok read)
    (each : ∀ item a, item.DistinctKeys → check item = .ok a → P a) :
    ∀ a ∈ (Collection.ofRead read).items, P a := by
  cases read with
  | none => exact fun a mem => by cases mem
  | some items =>
    obtain ⟨field, mem, list⟩ := Record.optional_eq_some optional
    exact forall_of_list list (values field mem) each

theorem Document.sound_of_check {v : Json} {d : Document} (distinct : v.DistinctKeys)
    (checked : Document.check v = .ok d) : d.Sound := by
  obtain ⟨fields, rfl, built⟩ := Check.entity_eq_ok checked
  have values := (Json.distinctKeys_object.1 distinct).2
  simp only [Checked.seq_eq_ok, Checked.map_eq_ok] at built
  obtain ⟨_, viewport, ⟨_, _, ⟨_, _, ⟨_, _, ⟨_, ⟨nodes, readNodes, rfl⟩, rfl⟩, ⟨connections,
    readConnections, rfl⟩, rfl⟩, ⟨vars, readVars, rfl⟩, rfl⟩, ⟨comments, readComments, rfl⟩, rfl⟩, -,
    rfl⟩ := built
  exact
    { nodes := Collection.forall_ofRead values readNodes fun _ _ => Node.sound_of_check
      connections := Collection.forall_ofRead values readConnections fun _ _ _ =>
        Connection.sound_of_check
      vars := Collection.forall_ofRead values readVars fun _ _ => Variable.sound_of_check
      comments := Collection.forall_ofRead values readComments fun _ _ _ => Comment.sound_of_check }

/-- A decoded value that a payload carries has distinct keys; text and bytes are free. -/
def Payload.DistinctKeys : Payload → Prop
  | .value v => v.DistinctKeys
  | _ => True

theorem Payload.distinctKeys_empty : (Payload.value (.object [])).DistinctKeys :=
  Json.distinctKeys_object.2 ⟨List.nodup_nil, fun _ mem => absurd mem List.not_mem_nil⟩

/-- A payload is read as a sound flowchart. -/
theorem Document.sound_of_read {payload : Payload} {d : Document} (distinct : payload.DistinctKeys)
    (read : Document.read payload = .ok d) : d.Sound := by
  -- text and bytes are decoded first, and the reader never repeats a key
  have ofJson {v : Json} (distinct : v.DistinctKeys) (made : Document.ofJson v = .ok d) : d.Sound := by
    unfold Document.ofJson at made
    split at made
    next =>
      split at made
      next checked => cases made; exact sound_of_check distinct checked
      next => cases made
    next => cases made
  cases payload with
  | value v => exact ofJson distinct read
  | text text =>
    simp only [Document.read] at read
    split at read
    next parsed => exact ofJson (Json.parse_distinctKeys parsed) read
    next => cases read
  | bytes bytes =>
    simp only [Document.read] at read
    split at read
    next => cases read
    next =>
      split at read
      next decoded => exact ofJson (Json.read_distinctKeys decoded) read
      next => cases read

end Flowchart
