import Mathlib.Data.Multiset.AddSub
import Mathlib.Tactic.Abel
import Flowchart.Proofs.Document.Sound
import Flowchart.Proofs.Json.RoundTrip

/-!
# Reading back what was written

* `Pin.check_toJson`, …, `Viewport.check_toJson`: a sound part is read back from what it is written as.
* `Document.reread`: the flowchart in which a list that was not given is empty.
* `Document.read_render`: the text of a sound flowchart is read as that flowchart.
-/

namespace Flowchart

open Json (Fields)

/-! ### Plain values and lists -/

theorem Check.name_string {s : String} (filled : s.isEmpty = false) :
    Check.name (.string s) = .ok s := by
  simp [Check.name, filled]

theorem Kind.check_name (kind : Kind) : Kind.check (.string kind.name) = .ok kind := by
  cases kind <;> rfl

theorem Link.check_name (link : Link) : Link.check (.string link.name) = .ok link := by
  cases link <;> rfl

theorem Check.list_map {check : Json → Checked α} {write : α → Json} {items : List α}
    (each : ∀ a ∈ items, check (write a) = .ok a) :
    Check.list check (.array (items.map write)) = .ok items := by
  refine Checked.items_eq_ok.2 ?_
  rw [List.forall₂_map_left_iff, List.forall₂_same]
  exact each

theorem Check.list_strings (texts : List String) :
    Check.list Check.text (Json.strings texts) = .ok texts :=
  Check.list_map fun _ _ => rfl

theorem Json.distinctKeys_map {write : α → Json} {items : List α}
    (each : ∀ a ∈ items, (write a).DistinctKeys) : (Json.array (items.map write)).DistinctKeys :=
  Json.distinctKeys_array.2 (List.forall_mem_map.2 each)

theorem Json.distinctKeys_strings (texts : List String) : (Json.strings texts).DistinctKeys :=
  Json.distinctKeys_map fun _ _ => trivial

theorem Slot.distinctKeys {write : α → Json} (slot : Slot α) (each : ∀ a, (write a).DistinctKeys) :
    ∀ v ∈ slot.json? write, v.DistinctKeys := by
  rintro v written
  cases slot with
  | absent => cases written
  | null =>
    cases written
    trivial
  | value a =>
    cases written
    exact each a

theorem Look.distinctKeys {write : α → Json} {look : Look α} (sound : look.Sound)
    (each : ∀ a, (write a).DistinctKeys) : ∀ v ∈ look.json? write, v.DistinctKeys := by
  obtain ⟨slot, rfl⟩ := sound.exists_slot
  have same : (Look.ofSlot slot).json? write = slot.json? write := by cases slot <;> rfl
  exact same ▸ Slot.distinctKeys slot each

theorem Point.distinctKeys (p : Point) : p.toJson.DistinctKeys := ⟨trivial, trivial, trivial⟩

/-! ### Pins -/

namespace Pin

def entries (pin : Pin) : List (FieldName × Option Json) :=
  [(.id, some (.string pin.id)), (.name, some (.string pin.name)),
    (.type, some (.string pin.kind.name)), (.defaultValue, pin.defaultValue.map fun v => v),
    (.required, pin.required.map .bool), (.description, pin.description.json? .string)]

theorem layout (pin : Pin) : Layout fieldNames pin.entries pin.toFields where
  written := by
    simp only [entries, Fields.given_field, Fields.given_optional, Fields.given_slot, toFields,
      Fields.given_nil, List.append_assoc, List.append_nil]
    exact .refl _
  listed := rfl
  distinct := by decide
  apart := by decide

theorem check_toJson {pin : Pin} (sound : pin.Sound) : Pin.check pin.toJson = .ok pin := by
  have layout := pin.layout
  have id : Record.required ⟨pin.toFields⟩ .id Check.name = .ok pin.id :=
    layout.required (by simp [entries]) (Check.name_string sound.id)
  have name : Record.required ⟨pin.toFields⟩ .name Check.name = .ok pin.name :=
    layout.required (by simp [entries]) (Check.name_string sound.name)
  have kind : Record.required ⟨pin.toFields⟩ .type Kind.check = .ok pin.kind :=
    layout.required (by simp [entries]) (Kind.check_name _)
  have defaultValue :
      Record.optional ⟨pin.toFields⟩ .defaultValue (Check.any 2) = .ok pin.defaultValue :=
    layout.optional (fun v => v) (by simp [entries]) fun v given =>
      Check.any_eq_ok_iff.2 ⟨(sound.defaultValue v given).shallow, rfl⟩
  have required : Record.optional ⟨pin.toFields⟩ .required Check.flag = .ok pin.required :=
    layout.optional Json.bool (by simp [entries]) fun _ _ => rfl
  have description : Record.slot ⟨pin.toFields⟩ .description Check.text = .ok pin.description :=
    layout.slot Json.string (by simp [entries]) fun _ _ => ⟨nofun, rfl⟩
  refine layout.entity ?_ _
  simp only [id, name, kind, defaultValue, required, description]
  rfl

theorem distinctKeys_toJson {pin : Pin} (sound : pin.Sound) : pin.toJson.DistinctKeys := by
  refine pin.layout.distinctKeys ?_
  simp only [entries, List.forall_mem_cons, Option.mem_some_iff, forall_eq', Option.forall_mem_map]
  refine ⟨trivial, trivial, trivial, ?_, fun _ _ => trivial, ?_, nofun⟩
  · exact fun v given => (sound.defaultValue v given).distinct
  · exact Slot.distinctKeys _ fun _ => trivial

end Pin

/-! ### Nodes -/

namespace Node

def entries (node : Node) : List (FieldName × Option Json) :=
  [(.id, some (.string node.id)), (.type, some (.string node.type)),
    (.position, node.position.map Point.toJson), (.label, node.label.json? .string),
    (.data, node.data.map .object),
    (.inputPins, node.inputPins.map fun pins => .array (pins.map Pin.toJson)),
    (.outputPins, node.outputPins.map fun pins => .array (pins.map Pin.toJson)),
    (.width, node.width.json? .double), (.height, node.height.json? .double),
    (.collapsed, node.collapsed.json? .bool), (.errors, node.errors.json? Json.strings),
    (.warnings, node.warnings.json? Json.strings)]

theorem layout (node : Node) : Layout fieldNames node.entries node.toFields where
  written := by
    simp only [entries, Fields.given_field, Fields.given_optional, Fields.given_slot,
      Fields.given_look, toFields, Fields.given_nil, List.append_assoc, List.append_nil]
    exact .refl _
  listed := rfl
  distinct := by decide
  apart := by decide

theorem check_toJson {node : Node} (sound : node.Sound) : Node.check node.toJson = .ok node := by
  have layout := node.layout
  have id : Record.required ⟨node.toFields⟩ .id Check.name = .ok node.id :=
    layout.required (by simp [entries]) (Check.name_string sound.id)
  have type : Record.required ⟨node.toFields⟩ .type Check.name = .ok node.type :=
    layout.required (by simp [entries]) (Check.name_string sound.type)
  have position : Record.optional ⟨node.toFields⟩ .position Point.check = .ok node.position :=
    layout.optional Point.toJson (by simp [entries]) fun _ _ => rfl
  have label : Look.ofSlot <$> Record.slot ⟨node.toFields⟩ .label Check.text = .ok node.label :=
    layout.look sound.label Json.string (by simp [entries]) fun _ => ⟨nofun, rfl⟩
  have data : Record.optional ⟨node.toFields⟩ .data (Check.dictionary 1) = .ok node.data :=
    layout.optional Json.object (by simp [entries]) fun fields given =>
      Check.dictionary_eq_ok_iff.2
        ⟨rfl, fun field mem => ((sound.data fields given).values field mem).shallow⟩
  have inputPins :
      Record.optional ⟨node.toFields⟩ .inputPins (Check.list Pin.check) = .ok node.inputPins :=
    layout.optional (fun pins => .array (pins.map Pin.toJson)) (by simp [entries]) fun pins given =>
      Check.list_map fun pin mem => Pin.check_toJson (sound.inputPins pins given pin mem)
  have outputPins :
      Record.optional ⟨node.toFields⟩ .outputPins (Check.list Pin.check) = .ok node.outputPins :=
    layout.optional (fun pins => .array (pins.map Pin.toJson)) (by simp [entries]) fun pins given =>
      Check.list_map fun pin mem => Pin.check_toJson (sound.outputPins pins given pin mem)
  have width : Look.ofSlot <$> Record.slot ⟨node.toFields⟩ .width Check.number = .ok node.width :=
    layout.look sound.width Json.double (by simp [entries]) fun _ => ⟨nofun, rfl⟩
  have height : Look.ofSlot <$> Record.slot ⟨node.toFields⟩ .height Check.number = .ok node.height :=
    layout.look sound.height Json.double (by simp [entries]) fun _ => ⟨nofun, rfl⟩
  have collapsed :
      Look.ofSlot <$> Record.slot ⟨node.toFields⟩ .collapsed Check.flag = .ok node.collapsed :=
    layout.look sound.collapsed Json.bool (by simp [entries]) fun _ => ⟨nofun, rfl⟩
  have errors :
      Record.slot ⟨node.toFields⟩ .errors (Check.list Check.text) = .ok node.errors :=
    layout.slot Json.strings (by simp [entries]) fun _ _ => ⟨nofun, Check.list_strings _⟩
  have warnings :
      Record.slot ⟨node.toFields⟩ .warnings (Check.list Check.text) = .ok node.warnings :=
    layout.slot Json.strings (by simp [entries]) fun _ _ => ⟨nofun, Check.list_strings _⟩
  refine layout.entity ?_ _
  simp only [id, type, position, label, data, inputPins, outputPins, width, height, collapsed, errors,
    warnings]
  rfl

theorem distinctKeys_toJson {node : Node} (sound : node.Sound) : node.toJson.DistinctKeys := by
  refine node.layout.distinctKeys ?_
  simp only [entries, List.forall_mem_cons, Option.mem_some_iff, forall_eq', Option.forall_mem_map]
  refine ⟨trivial, trivial, fun p _ => p.distinctKeys, Look.distinctKeys sound.label fun _ => trivial,
    fun fields given => ?_, fun pins given => ?_, fun pins given => ?_,
    Look.distinctKeys sound.width fun _ => trivial, Look.distinctKeys sound.height fun _ => trivial,
    Look.distinctKeys sound.collapsed fun _ => trivial, Slot.distinctKeys _ Json.distinctKeys_strings,
    Slot.distinctKeys _ Json.distinctKeys_strings, nofun⟩
  · obtain ⟨keys, values⟩ := sound.data fields given
    exact Json.distinctKeys_object.2 ⟨keys, fun field mem => (values field mem).distinct⟩
  · exact Json.distinctKeys_map fun pin mem => Pin.distinctKeys_toJson (sound.inputPins _ given pin mem)
  · exact Json.distinctKeys_map fun pin mem => Pin.distinctKeys_toJson (sound.outputPins _ given pin mem)

end Node

/-! ### Connections, variables, comments and viewports -/

namespace Connection

def entries (c : Connection) : List (FieldName × Option Json) :=
  [(.id, some (.string c.id)), (.fromNodeId, some (.string c.source.node)),
    (.fromPinId, some (.string c.source.pin)), (.toNodeId, some (.string c.target.node)),
    (.toPinId, some (.string c.target.pin)), (.type, some (.string c.link.name))]

theorem layout (c : Connection) : Layout fieldNames c.entries c.toFields where
  written := .refl _
  listed := rfl
  distinct := by decide
  apart := by decide

theorem check_toJson {c : Connection} (sound : c.Sound) : Connection.check c.toJson = .ok c := by
  have layout := c.layout
  have id : Record.required ⟨c.toFields⟩ .id Check.name = .ok c.id :=
    layout.required (by simp [entries]) (Check.name_string sound.id)
  have sourceNode : Record.required ⟨c.toFields⟩ .fromNodeId Check.name = .ok c.source.node :=
    layout.required (by simp [entries]) (Check.name_string sound.sourceNode)
  have sourcePin : Record.required ⟨c.toFields⟩ .fromPinId Check.name = .ok c.source.pin :=
    layout.required (by simp [entries]) (Check.name_string sound.sourcePin)
  have targetNode : Record.required ⟨c.toFields⟩ .toNodeId Check.name = .ok c.target.node :=
    layout.required (by simp [entries]) (Check.name_string sound.targetNode)
  have targetPin : Record.required ⟨c.toFields⟩ .toPinId Check.name = .ok c.target.pin :=
    layout.required (by simp [entries]) (Check.name_string sound.targetPin)
  have link : Record.required ⟨c.toFields⟩ .type Link.check = .ok c.link :=
    layout.required (by simp [entries]) (Link.check_name _)
  refine layout.entity ?_ _
  simp only [id, sourceNode, sourcePin, targetNode, targetPin, link]
  rfl

theorem distinctKeys_toJson (c : Connection) : c.toJson.DistinctKeys := by
  refine c.layout.distinctKeys ?_
  simp only [entries, List.forall_mem_cons, Option.mem_some_iff, forall_eq']
  exact ⟨trivial, trivial, trivial, trivial, trivial, trivial, nofun⟩

end Connection

namespace Variable

def entries (v : Variable) : List (FieldName × Option Json) :=
  [(.id, some (.string v.id)), (.name, some (.string v.name)), (.type, some (.string v.kind.name)),
    (.defaultValue, v.defaultValue.map fun v => v), (.description, v.description.json? .string)]

theorem layout (v : Variable) : Layout fieldNames v.entries v.toFields where
  written := by
    simp only [entries, Fields.given_field, Fields.given_optional, Fields.given_slot, toFields,
      Fields.given_nil, List.append_assoc, List.append_nil]
    exact .refl _
  listed := rfl
  distinct := by decide
  apart := by decide

theorem check_toJson {v : Variable} (sound : v.Sound) : Variable.check v.toJson = .ok v := by
  have layout := v.layout
  have id : Record.required ⟨v.toFields⟩ .id Check.name = .ok v.id :=
    layout.required (by simp [entries]) (Check.name_string sound.id)
  have name : Record.required ⟨v.toFields⟩ .name Check.name = .ok v.name :=
    layout.required (by simp [entries]) (Check.name_string sound.name)
  have kind : Record.required ⟨v.toFields⟩ .type Kind.check = .ok v.kind :=
    layout.required (by simp [entries]) (Kind.check_name _)
  have defaultValue :
      Record.optional ⟨v.toFields⟩ .defaultValue (Check.any 1) = .ok v.defaultValue :=
    layout.optional (fun v => v) (by simp [entries]) fun value given =>
      Check.any_eq_ok_iff.2 ⟨(sound.defaultValue value given).shallow, rfl⟩
  have description : Record.slot ⟨v.toFields⟩ .description Check.text = .ok v.description :=
    layout.slot Json.string (by simp [entries]) fun _ _ => ⟨nofun, rfl⟩
  refine layout.entity ?_ _
  simp only [id, name, kind, defaultValue, description]
  rfl

theorem distinctKeys_toJson {v : Variable} (sound : v.Sound) : v.toJson.DistinctKeys := by
  refine v.layout.distinctKeys ?_
  simp only [entries, List.forall_mem_cons, Option.mem_some_iff, forall_eq', Option.forall_mem_map]
  refine ⟨trivial, trivial, trivial, ?_, ?_, nofun⟩
  · exact fun value given => (sound.defaultValue value given).distinct
  · exact Slot.distinctKeys _ fun _ => trivial

end Variable

namespace Comment

def entries (c : Comment) : List (FieldName × Option Json) :=
  [(.id, some (.string c.id)), (.position, some c.position.toJson), (.size, some c.size.toJson),
    (.text, c.text.map .string), (.color, c.color.json? .string),
    (.nodeIds, c.nodeIds.json? Json.strings)]

theorem layout (c : Comment) : Layout fieldNames c.entries c.toFields where
  written := by
    simp only [entries, Fields.given_field, Fields.given_optional, Fields.given_slot, toFields,
      Fields.given_nil, List.append_assoc, List.append_nil]
    exact .refl _
  listed := rfl
  distinct := by decide
  apart := by decide

theorem check_toJson {c : Comment} (sound : c.Sound) : Comment.check c.toJson = .ok c := by
  have layout := c.layout
  have id : Record.required ⟨c.toFields⟩ .id Check.name = .ok c.id :=
    layout.required (by simp [entries]) (Check.name_string sound.id)
  have position : Record.required ⟨c.toFields⟩ .position Point.check = .ok c.position :=
    layout.required (v := c.position.toJson) (by simp [entries]) rfl
  have size : Record.required ⟨c.toFields⟩ .size Point.check = .ok c.size :=
    layout.required (v := c.size.toJson) (by simp [entries]) rfl
  have text : Record.optional ⟨c.toFields⟩ .text Check.text = .ok c.text :=
    layout.optional Json.string (by simp [entries]) fun _ _ => rfl
  have color : Record.slot ⟨c.toFields⟩ .color Check.text = .ok c.color :=
    layout.slot Json.string (by simp [entries]) fun _ _ => ⟨nofun, rfl⟩
  have nodeIds : Record.slot ⟨c.toFields⟩ .nodeIds (Check.list Check.text) = .ok c.nodeIds :=
    layout.slot Json.strings (by simp [entries]) fun _ _ => ⟨nofun, Check.list_strings _⟩
  refine layout.entity ?_ _
  simp only [id, position, size, text, color, nodeIds]
  rfl

theorem distinctKeys_toJson (c : Comment) : c.toJson.DistinctKeys := by
  refine c.layout.distinctKeys ?_
  simp only [entries, List.forall_mem_cons, Option.mem_some_iff, forall_eq', Option.forall_mem_map]
  exact ⟨trivial, c.position.distinctKeys, c.size.distinctKeys, fun _ _ => trivial,
    Slot.distinctKeys _ fun _ => trivial, Slot.distinctKeys _ Json.distinctKeys_strings, nofun⟩

end Comment

namespace Viewport

def entries (v : Viewport) : List (FieldName × Option Json) :=
  [(.zoom, v.zoom.map .double), (.panX, v.panX.map .double), (.panY, v.panY.map .double)]

theorem layout (v : Viewport) : Layout fieldNames v.entries v.toFields where
  written := by
    simp only [entries, Fields.given_optional, toFields, Fields.given_nil, List.append_assoc,
      List.append_nil]
    exact .refl _
  listed := rfl
  distinct := by decide
  apart := by decide

theorem check_toJson (v : Viewport) : Viewport.check v.toJson = .ok v := by
  have layout := v.layout
  have zoom : Record.optional ⟨v.toFields⟩ .zoom Check.number = .ok v.zoom :=
    layout.optional Json.double (by simp [entries]) fun _ _ => rfl
  have panX : Record.optional ⟨v.toFields⟩ .panX Check.number = .ok v.panX :=
    layout.optional Json.double (by simp [entries]) fun _ _ => rfl
  have panY : Record.optional ⟨v.toFields⟩ .panY Check.number = .ok v.panY :=
    layout.optional Json.double (by simp [entries]) fun _ _ => rfl
  refine layout.entity ?_ _
  simp only [zoom, panX, panY]
  rfl

theorem distinctKeys_toJson (v : Viewport) : v.toJson.DistinctKeys := by
  refine v.layout.distinctKeys ?_
  simp only [entries, List.forall_mem_cons, Option.forall_mem_map]
  exact ⟨fun _ _ => trivial, fun _ _ => trivial, fun _ _ => trivial, nofun⟩

end Viewport

/-! ### Flowcharts -/

namespace Collection

/-- A list as it is read back. One that was not given is read back empty, whatever it holds. -/
def reread (c : Collection α) : Collection α := .of (if c.given then c.items else [])

theorem write_append_writeMissing (name : String) (write : α → Json) (c : Collection α) :
    c.write name write ++ c.writeMissing name = [(name, .array (c.reread.items.map write))] := by
  obtain ⟨items, given⟩ := c
  cases given <;> rfl

theorem mem_reread {c : Collection α} {a : α} (mem : a ∈ c.reread.items) : a ∈ c.items := by
  obtain ⟨items, given⟩ := c
  cases given with
  | false => cases mem
  | true => exact mem

end Collection

namespace Document

/-- A flowchart as it is read back. -/
def reread (d : Document) : Document :=
  { nodes := d.nodes.reread
    connections := d.connections.reread
    vars := d.vars.reread
    comments := d.comments.reread
    viewport := d.viewport }

theorem Sound.reread {d : Document} (sound : d.Sound) : d.reread.Sound where
  nodes := fun node mem => sound.nodes node (Collection.mem_reread mem)
  connections := fun c mem => sound.connections c (Collection.mem_reread mem)
  vars := fun v mem => sound.vars v (Collection.mem_reread mem)
  comments := fun c mem => sound.comments c (Collection.mem_reread mem)

def entries (d : Document) : List (FieldName × Option Json) :=
  [(.nodes, some (.array (d.reread.nodes.items.map Node.toJson))),
    (.connections, some (.array (d.reread.connections.items.map Connection.toJson))),
    (.vars, some (.array (d.reread.vars.items.map Variable.toJson))),
    (.comments, some (.array (d.reread.comments.items.map Comment.toJson))),
    (.viewport, d.viewport.json? Viewport.toJson)]

/-- Every list is written once, in its own place or behind the rest. -/
theorem toFields_perm (d : Document) : d.toFields.Perm (Fields.given d.entries) := by
  have written : Fields.given d.entries =
      (d.nodes.write "nodes" Node.toJson ++ d.nodes.writeMissing "nodes") ++
      (d.connections.write "connections" Connection.toJson ++
        d.connections.writeMissing "connections") ++
      (d.vars.write "variables" Variable.toJson ++ d.vars.writeMissing "variables") ++
      (d.comments.write "comments" Comment.toJson ++ d.comments.writeMissing "comments") ++
      d.viewport.write "viewport" Viewport.toJson := by
    simp only [Collection.write_append_writeMissing, entries, Fields.given_field, Fields.given_slot,
      Fields.given_nil, List.append_nil]
    rfl
  -- the two sides differ in the order of their parts only, which a multiset does not tell
  rw [written, toFields, ← Multiset.coe_eq_coe]
  simp only [← Multiset.coe_add]
  abel

/-- A flowchart that is read back is written with the same keys and values. -/
theorem toFields_reread_perm (d : Document) : d.toFields.Perm d.reread.toFields := by
  have same : d.reread.entries = d.entries := rfl
  exact d.toFields_perm.trans (same ▸ d.reread.toFields_perm.symm)

theorem layout (d : Document) : Layout fieldNames d.entries d.toFields where
  written := d.toFields_perm
  listed := rfl
  distinct := by decide
  apart := by decide

theorem check_toJson {d : Document} (sound : d.Sound) : Document.check d.toJson = .ok d.reread := by
  -- every list is written, so all four are read as given
  have layout := d.layout
  have sound := sound.reread
  have nodes : Record.optional ⟨d.toFields⟩ .nodes (Check.list Node.check) =
      .ok (some d.reread.nodes.items) :=
    layout.optional (fun items => .array (items.map Node.toJson)) (by simp [entries]) fun items same =>
      Check.list_map fun node mem =>
        Node.check_toJson (sound.nodes node (Option.some.inj same ▸ mem))
  have connections : Record.optional ⟨d.toFields⟩ .connections (Check.list Connection.check) =
      .ok (some d.reread.connections.items) :=
    layout.optional (fun items => .array (items.map Connection.toJson)) (by simp [entries])
      fun items same => Check.list_map fun c mem =>
        Connection.check_toJson (sound.connections c (Option.some.inj same ▸ mem))
  have vars : Record.optional ⟨d.toFields⟩ .vars (Check.list Variable.check) =
      .ok (some d.reread.vars.items) :=
    layout.optional (fun items => .array (items.map Variable.toJson)) (by simp [entries])
      fun items same => Check.list_map fun v mem =>
        Variable.check_toJson (sound.vars v (Option.some.inj same ▸ mem))
  have comments : Record.optional ⟨d.toFields⟩ .comments (Check.list Comment.check) =
      .ok (some d.reread.comments.items) :=
    layout.optional (fun items => .array (items.map Comment.toJson)) (by simp [entries])
      fun items same => Check.list_map fun c mem =>
        Comment.check_toJson (sound.comments c (Option.some.inj same ▸ mem))
  have viewport : Record.slot ⟨d.toFields⟩ .viewport Viewport.check = .ok d.viewport :=
    layout.slot Viewport.toJson (by simp [entries]) fun v _ => ⟨nofun, v.check_toJson⟩
  refine layout.entity ?_ _
  simp only [nodes, connections, vars, comments, viewport]
  rfl

theorem distinctKeys_toJson {d : Document} (sound : d.Sound) : d.toJson.DistinctKeys := by
  have sound := sound.reread
  refine d.layout.distinctKeys ?_
  simp only [entries, List.forall_mem_cons, Option.mem_some_iff, forall_eq']
  exact ⟨Json.distinctKeys_map fun node mem => Node.distinctKeys_toJson (sound.nodes node mem),
    Json.distinctKeys_map fun c _ => c.distinctKeys_toJson,
    Json.distinctKeys_map fun v mem => Variable.distinctKeys_toJson (sound.vars v mem),
    Json.distinctKeys_map fun c _ => c.distinctKeys_toJson,
    Slot.distinctKeys _ Viewport.distinctKeys_toJson, nofun⟩

theorem ofJson_toJson {d : Document} (sound : d.Sound) : ofJson d.toJson = .ok d.reread := by
  have checked : check (.object d.toFields) = .ok d.reread := check_toJson sound
  simp only [ofJson, toJson, checked]

/-- The text of a sound flowchart is read as the flowchart with the lists that were given. -/
theorem read_render {d : Document} (sound : d.Sound) (indent : Option Nat) :
    read (.text (d.render indent)) = .ok d.reread := by
  have parsed : Json.parse (d.render indent) = .ok d.toJson :=
    Json.parse_render indent (distinctKeys_toJson sound)
  simp only [read, parsed, ofJson_toJson sound]

end Document

end Flowchart
