import Flowchart.Proofs.Document.RoundTrip

/-!
# Keys are written again

* `Respelled`: the keys of an object and those that are written for it, each in the spelling of its field.
* `Layout.respelled`: what is written by a layout has the keys of the object that was read.
* `Node.Respelled`, `Document.Respelled`: the keys of a part and of all parts inside it.
* `Document.respelled_of_check`: writing a flowchart that was read drops no key, and adds lists only.
* `Document.exists_cycle`: what is read and written settles after one more time, and loses nothing.
-/

namespace Flowchart

open Json (Fields)

/-- The spelling in which a key is written, if it is a spelling of one of the fields. -/
def FieldName.respell (names : List FieldName) (key : String) : String :=
  ((names.find? fun name => name.alternate == key).map wire).getD key

/-- Every key of an object is written, in the spelling of its field, and those of the `added` fields that the
object lacks are the only others. The values of some fields have parts of their own. -/
structure Respelled (names added : List FieldName) (parts : List (FieldName × (Json → Json → Prop)))
    (fields written : Fields) : Prop where
  keys : written.keys.Perm (fields.keys.map (FieldName.respell names) ++
    (added.filter fun name => name.wire ∉ fields.keys).map FieldName.wire)
  parts : ∀ part ∈ parts, ∀ field ∈ fields, FieldName.respell names field.1 = part.1.wire →
    ∃ w, (part.1.wire, w) ∈ written ∧ part.2 field.2 w

namespace Json

/-- Two objects whose fields are related. -/
def Objects (R : Fields → Fields → Prop) (v w : Json) : Prop :=
  ∃ fields written, v = .object fields ∧ w = .object written ∧ R fields written

/-- Two lists whose items are related one by one. -/
def Lists (R : Json → Json → Prop) (v w : Json) : Prop :=
  ∃ items written, v = .array items ∧ w = .array written ∧ List.Forall₂ R items written

/-- Null stays null. -/
def OrNull (R : Json → Json → Prop) (v w : Json) : Prop := v = .null ∧ w = .null ∨ R v w

end Json

/-! ### The fields of an entity -/

namespace Record

variable {r : Record} {name : FieldName} {check : Json → Checked α}

theorem isSome_required {a : α} (read : r.required name check = .ok a) : (r.find? name).isSome = true := by
  unfold required at read
  split at read
  next found => rw [found]; rfl
  next => cases read

theorem isSome_optional {o : Option α} (read : r.optional name check = .ok o) (write : α → Json) :
    (r.find? name).isSome = (o.map write).isSome := by
  unfold optional at read
  split at read
  next found =>
    obtain ⟨a, -, rfl⟩ := Checked.map_eq_ok.1 read
    rw [found]
    rfl
  next absent =>
    cases read
    rw [absent]
    rfl

theorem isSome_slot {s : Slot α} (read : r.slot name check = .ok s) (write : α → Json) :
    (r.find? name).isSome = (s.json? write).isSome := by
  unfold slot at read
  split at read
  next found =>
    cases read
    rw [found]
    rfl
  next found =>
    obtain ⟨a, -, rfl⟩ := Checked.map_eq_ok.1 read
    rw [found]
    rfl
  next absent =>
    cases read
    rw [absent]
    rfl

theorem isSome_look {s : Slot α} (read : r.slot name check = .ok s) (write : α → Json) :
    (r.find? name).isSome = ((Look.ofSlot s).json? write).isSome := by
  rw [isSome_slot read write]
  cases s <;> rfl

/-- The value of a field that is found is the one that is read. -/
theorem optional_of_find? {o : Option α} (read : r.optional name check = .ok o) {key : String} {v : Json}
    (found : r.find? name = some (key, v)) : ∃ a, o = some a ∧ check v = .ok a := by
  simp only [optional, found] at read
  obtain ⟨a, checked, rfl⟩ := Checked.map_eq_ok.1 read
  exact ⟨a, rfl, Checked.under_eq_ok.1 checked⟩

theorem slot_of_find? {s : Slot α} (read : r.slot name check = .ok s) {key : String} {v : Json}
    (found : r.find? name = some (key, v)) :
    v = .null ∧ s = .null ∨ ∃ a, s = .value a ∧ check v = .ok a := by
  unfold slot at read
  rw [found] at read
  split at read
  next same =>
    cases same
    cases read
    exact .inl ⟨rfl, rfl⟩
  next same =>
    cases same
    obtain ⟨a, checked, rfl⟩ := Checked.map_eq_ok.1 read
    exact .inr ⟨a, rfl, Checked.under_eq_ok.1 checked⟩
  next same => cases same

/-- A field is found under one of its spellings. -/
theorem eq_or_eq_of_find? {key : String} {v : Json} (found : r.find? name = some (key, v)) :
    key = name.wire ∨ key = name.alternate := by
  unfold find? at found
  split at found
  next =>
    cases found
    exact .inl rfl
  next =>
    obtain ⟨_, -, made⟩ := Option.map_eq_some_iff.1 found
    cases made
    exact .inr rfl

theorem not_mem_of_find? {fields : Fields} (absent : (Record.mk fields).find? name = none) :
    name.wire ∉ fields.keys := by
  unfold find? at absent
  split at absent
  next => cases absent
  next free => exact Fields.get?_eq_none_iff.1 free

/-- Where no other keys are allowed, every field of the object is one of the entity. -/
theorem find?_of_noOthers {names : List FieldName} {fields : Fields} (distinct : fields.keys.Nodup)
    (accepted : (Record.mk fields).noOthers names = .ok ()) {field : String × Json} (mem : field ∈ fields) :
    ∃ name ∈ names, (Record.mk fields).find? name = some field := by
  have used : (Record.mk fields).isUsed names field.1 = true := by
    unfold noOthers at accepted
    split at accepted
    next none =>
      have used := List.filter_eq_nil_iff.1 none field mem
      simpa using used
    next => cases accepted
  have there : fields.get? field.1 = some field.2 := (Fields.get?_eq_some_iff distinct).2 mem
  obtain ⟨name, known, used⟩ := List.any_eq_true.1 used
  refine ⟨name, known, ?_⟩
  simp only [Bool.or_eq_true, Bool.and_eq_true, beq_iff_eq, Option.isNone_iff_eq_none] at used
  obtain same | ⟨same, free⟩ := used
  · rw [← same] at there
    simp only [find?, there]
    rw [same]
  · rw [← same] at there
    simp only [find?, there, free, Option.map_some]
    rw [same]

end Record

/-- What was read of an object has no keys but those of its fields. -/
theorem Check.entity_eq_ok_iff {kind : String} {names : List FieldName} {build : Record → Checked α}
    {v : Json} {a : α} : Check.entity kind names build v = .ok a ↔
      ∃ fields, v = .object fields ∧ build ⟨fields⟩ = .ok a ∧ (Record.mk fields).noOthers names = .ok () := by
  unfold Check.entity
  split
  next fields =>
    simp only [Checked.seq_eq_ok, Checked.map_eq_ok, Json.object.injEq, exists_eq_left']
    constructor
    · rintro ⟨_, _, ⟨_, built, rfl⟩, accepted, rfl⟩
      exact ⟨built, accepted⟩
    · rintro ⟨built, accepted⟩
      exact ⟨_, (), ⟨a, built, rfl⟩, accepted, rfl⟩
  next other =>
    refine iff_of_false (fun made => by cases made) ?_
    rintro ⟨fields, rfl, -⟩
    exact other fields rfl

namespace Layout

variable {names added : List FieldName} {entries : List (FieldName × Option Json)} {fields written : Fields}
  {name : FieldName} {key : String} {v : Json}

theorem eq_of_wire (layout : Layout names entries written) {other : FieldName} (known : name ∈ names)
    (otherKnown : other ∈ names) (same : name.wire = other.wire) : name = other :=
  List.inj_on_of_nodup_map layout.distinct known otherKnown same

/-- The key under which a field is found is written in the first spelling of the field. -/
theorem respell_of_find? (layout : Layout names entries written)
    (alternates : (names.map FieldName.alternate).Nodup) (known : name ∈ names)
    (found : (Record.mk fields).find? name = some (key, v)) : FieldName.respell names key = name.wire := by
  unfold FieldName.respell
  cases first : names.find? fun name => name.alternate == key with
  | none =>
    have other := List.find?_eq_none.1 first name known
    obtain rfl | rfl := Record.eq_or_eq_of_find? found
    · rfl
    · simp at other
  | some other =>
    have otherKnown := List.mem_of_find?_eq_some first
    have same : other.alternate = key := by simpa using List.find?_some first
    obtain rfl | rfl := Record.eq_or_eq_of_find? found
    · -- a second spelling that is the first of a field is both spellings of that field
      obtain plain | apart := layout.apart other otherKnown
      · exact plain.symm.trans same
      · exact absurd (same ▸ List.mem_map_of_mem known) apart
    · exact congrArg FieldName.wire (List.inj_on_of_nodup_map alternates otherKnown known same)

/-- Every field of an object without other keys is found, and respelled as the field is. -/
theorem exists_respell (layout : Layout names entries written)
    (alternates : (names.map FieldName.alternate).Nodup) (distinct : fields.keys.Nodup)
    (accepted : (Record.mk fields).noOthers names = .ok ()) {field : String × Json} (mem : field ∈ fields) :
    ∃ name ∈ names, (Record.mk fields).find? name = some field ∧
      FieldName.respell names field.1 = name.wire := by
  obtain ⟨name, known, found⟩ := Record.find?_of_noOthers distinct accepted mem
  exact ⟨name, known, found, layout.respell_of_find? alternates known found⟩

/-- Two keys of an object are not spellings of the same field. -/
theorem respell_nodup (layout : Layout names entries written)
    (alternates : (names.map FieldName.alternate).Nodup) (distinct : fields.keys.Nodup)
    (accepted : (Record.mk fields).noOthers names = .ok ()) :
    (fields.keys.map (FieldName.respell names)).Nodup := by
  refine distinct.map_on fun first firstMem second secondMem same => ?_
  obtain ⟨_, firstThere, rfl⟩ := List.mem_map.1 firstMem
  obtain ⟨_, secondThere, rfl⟩ := List.mem_map.1 secondMem
  obtain ⟨one, oneKnown, oneFound, oneWire⟩ := layout.exists_respell alternates distinct accepted firstThere
  obtain ⟨two, twoKnown, twoFound, twoWire⟩ := layout.exists_respell alternates distinct accepted secondThere
  cases layout.eq_of_wire oneKnown twoKnown (oneWire.symm.trans (same.trans twoWire))
  exact congrArg Prod.fst (Option.some.inj (oneFound.symm.trans twoFound))

/-- What is written by a layout has the keys of the object that was read, if the layout has a value exactly
for the fields that were found, and for those that are added. -/
theorem respelled (layout : Layout names entries written) (alternates : (names.map FieldName.alternate).Nodup)
    (distinct : fields.keys.Nodup) (accepted : (Record.mk fields).noOthers names = .ok ())
    (addedNames : added.Sublist names) (plain : ∀ name ∈ added, name.alternate = name.wire)
    (present : ∀ entry ∈ entries, entry.2.isSome = true ↔
      ((Record.mk fields).find? entry.1).isSome = true ∨ entry.1.wire ∈ added.map FieldName.wire)
    {parts : List (FieldName × (Json → Json → Prop))} (known : ∀ part ∈ parts, part.1 ∈ names)
    (inner : ∀ part ∈ parts, ∀ key v, (Record.mk fields).find? part.1 = some (key, v) →
      ∃ w, (part.1, some w) ∈ entries ∧ part.2 v w) : Respelled names added parts fields written := by
  have writes {name w} (mem : (name, some w) ∈ entries) : (name.wire, w) ∈ written :=
    layout.written.symm.subset (List.mem_filterMap.2 ⟨_, mem, rfl⟩)
  -- a name of the entity that is found or added has a value in the layout
  have writesKey {name} (known : name ∈ names) (there : ((Record.mk fields).find? name).isSome = true ∨
      name.wire ∈ added.map FieldName.wire) : name.wire ∈ written.keys := by
    obtain ⟨⟨_, o⟩, mem, rfl⟩ := List.mem_map.1 (layout.listed.symm ▸ known)
    obtain ⟨w, rfl⟩ := Option.isSome_iff_exists.1 ((present _ mem).2 there)
    exact List.mem_map_of_mem (f := Prod.fst) (writes mem)
  refine ⟨(List.perm_ext_iff_of_nodup layout.keys_nodup ?_).2 fun key => ?_,
    fun part mem field there same => ?_⟩
  · refine List.nodup_append.2 ⟨layout.respell_nodup alternates distinct accepted, ?_, ?_⟩
    · exact layout.distinct.sublist ((List.filter_sublist.trans addedNames).map _)
    · -- a field that was found is none of those that the object lacks
      rintro _ old _ new rfl
      obtain ⟨_, old, same⟩ := List.mem_map.1 old
      obtain ⟨field, there, rfl⟩ := List.mem_map.1 old
      obtain ⟨name, known, found, wire⟩ := layout.exists_respell alternates distinct accepted there
      obtain ⟨other, lacking, otherWire⟩ := List.mem_map.1 new
      obtain ⟨mem, lacking⟩ := List.mem_filter.1 lacking
      cases layout.eq_of_wire known (addedNames.subset mem) (wire.symm.trans (same.trans otherWire.symm))
      have found : field.1 = name.wire :=
        (Record.eq_or_eq_of_find? found).elim id fun key => key.trans (plain name mem)
      simp only [decide_eq_true_eq] at lacking
      exact lacking (found ▸ old)
  · rw [List.mem_append]
    constructor
    · intro mem
      obtain ⟨field, wrote, rfl⟩ := List.mem_map.1 mem
      obtain ⟨name, known, wire, listed⟩ := layout.known wrote
      rw [← wire]
      cases found : (Record.mk fields).find? name with
      | some field =>
        have there := List.mem_map_of_mem (f := Prod.fst) (Record.mem_of_find? found)
        exact .inl (List.mem_map.2 ⟨field.1, there, layout.respell_of_find? alternates known found⟩)
      | none =>
        obtain there | added := (present _ listed).1 rfl
        · simp [found] at there
        · obtain ⟨other, mem, same⟩ := List.mem_map.1 added
          refine .inr (List.mem_map.2 ⟨other, List.mem_filter.2 ⟨mem, ?_⟩, same⟩)
          cases layout.eq_of_wire (addedNames.subset mem) known same
          simpa using Record.not_mem_of_find? found
    · rintro (old | new)
      · obtain ⟨_, key, rfl⟩ := List.mem_map.1 old
        obtain ⟨field, there, rfl⟩ := List.mem_map.1 key
        obtain ⟨name, known, found, wire⟩ := layout.exists_respell alternates distinct accepted there
        exact wire ▸ writesKey known (.inl (by rw [found]; rfl))
      · obtain ⟨name, lacking, rfl⟩ := List.mem_map.1 new
        have mem := (List.mem_filter.1 lacking).1
        exact writesKey (addedNames.subset mem) (.inr (List.mem_map_of_mem mem))
  · obtain ⟨name, nameKnown, found, wire⟩ := layout.exists_respell alternates distinct accepted there
    cases layout.eq_of_wire nameKnown (known part mem) (wire.symm.trans same)
    obtain ⟨w, listed, related⟩ := inner part mem field.1 field.2 found
    exact ⟨w, writes listed, related⟩

/-- Nothing is added to an object whose layout has no other values. -/
theorem respelled_alone (layout : Layout names entries written)
    (alternates : (names.map FieldName.alternate).Nodup) (distinct : fields.keys.Nodup)
    (accepted : (Record.mk fields).noOthers names = .ok ())
    (present : ∀ entry ∈ entries, ((Record.mk fields).find? entry.1).isSome = entry.2.isSome)
    {parts : List (FieldName × (Json → Json → Prop))} (known : ∀ part ∈ parts, part.1 ∈ names)
    (inner : ∀ part ∈ parts, ∀ key v, (Record.mk fields).find? part.1 = some (key, v) →
      ∃ w, (part.1, some w) ∈ entries ∧ part.2 v w) : Respelled names [] parts fields written :=
  layout.respelled alternates distinct accepted (List.nil_sublist _) nofun
    (fun entry mem => by simp [present entry mem]) known inner

end Layout

/-! ### The parts of a flowchart -/

namespace Json

/-- The items of a list that is read are related to what they are written as. -/
theorem lists_of_list {check : Json → Checked α} {write : α → Json} {R : Json → Json → Prop} {v : Json}
    {values : List α} (read : Check.list check v = .ok values) (distinct : v.DistinctKeys)
    (each : ∀ item a, item.DistinctKeys → check item = .ok a → R item (write a)) :
    Lists R v (.array (values.map write)) := by
  unfold Check.list at read
  split at read
  next items =>
    refine ⟨items, _, rfl, rfl, List.forall₂_map_right_iff.2 ?_⟩
    have all := Checked.items_eq_ok.1 read
    replace distinct := Json.distinctKeys_array.1 distinct
    clear read
    induction all with
    | nil => exact .nil
    | cons head tail ih =>
      obtain ⟨first, rest⟩ := List.forall_mem_cons.1 distinct
      exact .cons (each _ _ first head) (ih rest)
  next => cases read

end Json

/-! #### Pins -/

namespace Pin

/-- The keys of a pin are written again. -/
def Respelled : Json → Json → Prop := Json.Objects (Flowchart.Respelled fieldNames [] [])

theorem respelled_of_check {v : Json} {pin : Pin} (distinct : v.DistinctKeys)
    (checked : Pin.check v = .ok pin) : Respelled v pin.toJson := by
  obtain ⟨fields, rfl, built, accepted⟩ := Check.entity_eq_ok_iff.1 checked
  simp only [Checked.seq_eq_ok, Checked.map_eq_ok] at built
  obtain ⟨_, description, ⟨_, required, ⟨_, fallback, ⟨_, kind, ⟨_, name, ⟨id, readId, rfl⟩, readName,
    rfl⟩, readKind, rfl⟩, readFallback, rfl⟩, readRequired, rfl⟩, readDescription, rfl⟩ := built
  refine ⟨fields, _, rfl, rfl, Layout.respelled_alone (layout _) (by decide)
    (Json.distinctKeys_object.1 distinct).1 accepted ?_ (List.forall_mem_nil _) (List.forall_mem_nil _)⟩
  simp only [entries, List.forall_mem_cons]
  exact ⟨Record.isSome_required readId, Record.isSome_required readName, Record.isSome_required readKind,
    Record.isSome_optional readFallback _, Record.isSome_optional readRequired _,
    Record.isSome_slot readDescription _, List.forall_mem_nil _⟩

end Pin

/-! #### Nodes -/

namespace Node

/-- The keys of a node and of its pins are written again. -/
def Respelled : Json → Json → Prop :=
  Json.Objects (Flowchart.Respelled fieldNames []
    [(.inputPins, Json.Lists Pin.Respelled), (.outputPins, Json.Lists Pin.Respelled)])

theorem respelled_of_check {v : Json} {node : Node} (distinct : v.DistinctKeys)
    (checked : Node.check v = .ok node) : Respelled v node.toJson := by
  obtain ⟨fields, rfl, built, accepted⟩ := Check.entity_eq_ok_iff.1 checked
  obtain ⟨keys, values⟩ := Json.distinctKeys_object.1 distinct
  simp only [Checked.seq_eq_ok, Checked.map_eq_ok] at built
  obtain ⟨_, warnings, ⟨_, errors, ⟨_, _, ⟨_, _, ⟨_, _, ⟨_, outputPins, ⟨_, inputPins,
    ⟨_, data, ⟨_, _, ⟨_, position, ⟨_, type, ⟨id, readId, rfl⟩, readType, rfl⟩, readPosition, rfl⟩,
    ⟨label, readLabel, rfl⟩, rfl⟩, readData, rfl⟩, readInputs, rfl⟩, readOutputs, rfl⟩,
    ⟨width, readWidth, rfl⟩, rfl⟩, ⟨height, readHeight, rfl⟩, rfl⟩, ⟨collapsed, readCollapsed, rfl⟩, rfl⟩,
    readErrors, rfl⟩, readWarnings, rfl⟩ := built
  have pins {name : FieldName} {read : Option (List Pin)} {key : String} {v : Json}
      (found : (Record.mk fields).find? name = some (key, v))
      (list : Record.optional ⟨fields⟩ name (Check.list Pin.check) = .ok read) :
      ∃ w, read.map (fun pins => Json.array (pins.map Pin.toJson)) = some w ∧ Json.Lists Pin.Respelled v w := by
    obtain ⟨pins, rfl, checked⟩ := Record.optional_of_find? list found
    exact ⟨_, rfl, Json.lists_of_list checked (values _ (Record.mem_of_find? found)) fun _ _ =>
      Pin.respelled_of_check⟩
  refine ⟨fields, _, rfl, rfl, Layout.respelled_alone (layout _) (by decide) keys accepted ?_ ?_ ?_⟩
  · simp only [entries, List.forall_mem_cons]
    exact ⟨Record.isSome_required readId, Record.isSome_required readType,
      Record.isSome_optional readPosition _, Record.isSome_look readLabel _, Record.isSome_optional readData _,
      Record.isSome_optional readInputs _, Record.isSome_optional readOutputs _,
      Record.isSome_look readWidth _, Record.isSome_look readHeight _, Record.isSome_look readCollapsed _,
      Record.isSome_slot readErrors _, Record.isSome_slot readWarnings _, List.forall_mem_nil _⟩
  · simp [fieldNames]
  · simp only [List.forall_mem_cons]
    refine ⟨fun key v found => ?_, fun key v found => ?_, List.forall_mem_nil _⟩
    · obtain ⟨w, written, related⟩ := pins found readInputs
      exact ⟨w, by simp [entries, ← written], related⟩
    · obtain ⟨w, written, related⟩ := pins found readOutputs
      exact ⟨w, by simp [entries, ← written], related⟩

end Node

/-! #### Connections, variables, comments and viewports -/

namespace Connection

/-- The keys of a connection are written again. -/
def Respelled : Json → Json → Prop := Json.Objects (Flowchart.Respelled fieldNames [] [])

theorem respelled_of_check {v : Json} {c : Connection} (distinct : v.DistinctKeys)
    (checked : Connection.check v = .ok c) : Respelled v c.toJson := by
  obtain ⟨fields, rfl, built, accepted⟩ := Check.entity_eq_ok_iff.1 checked
  simp only [Checked.seq_eq_ok, Checked.map_eq_ok] at built
  obtain ⟨_, link, ⟨_, targetPin, ⟨_, targetNode, ⟨_, sourcePin, ⟨_, sourceNode, ⟨id, readId, rfl⟩,
    readSourceNode, rfl⟩, readSourcePin, rfl⟩, readTargetNode, rfl⟩, readTargetPin, rfl⟩, readLink,
    rfl⟩ := built
  refine ⟨fields, _, rfl, rfl, Layout.respelled_alone (layout _) (by decide)
    (Json.distinctKeys_object.1 distinct).1 accepted ?_ (List.forall_mem_nil _) (List.forall_mem_nil _)⟩
  simp only [entries, List.forall_mem_cons]
  exact ⟨Record.isSome_required readId, Record.isSome_required readSourceNode,
    Record.isSome_required readSourcePin, Record.isSome_required readTargetNode,
    Record.isSome_required readTargetPin, Record.isSome_required readLink, List.forall_mem_nil _⟩

end Connection

namespace Variable

/-- The keys of a variable are written again. -/
def Respelled : Json → Json → Prop := Json.Objects (Flowchart.Respelled fieldNames [] [])

theorem respelled_of_check {v : Json} {var : Variable} (distinct : v.DistinctKeys)
    (checked : Variable.check v = .ok var) : Respelled v var.toJson := by
  obtain ⟨fields, rfl, built, accepted⟩ := Check.entity_eq_ok_iff.1 checked
  simp only [Checked.seq_eq_ok, Checked.map_eq_ok] at built
  obtain ⟨_, description, ⟨_, fallback, ⟨_, kind, ⟨_, name, ⟨id, readId, rfl⟩, readName, rfl⟩, readKind,
    rfl⟩, readFallback, rfl⟩, readDescription, rfl⟩ := built
  refine ⟨fields, _, rfl, rfl, Layout.respelled_alone (layout _) (by decide)
    (Json.distinctKeys_object.1 distinct).1 accepted ?_ (List.forall_mem_nil _) (List.forall_mem_nil _)⟩
  simp only [entries, List.forall_mem_cons]
  exact ⟨Record.isSome_required readId, Record.isSome_required readName, Record.isSome_required readKind,
    Record.isSome_optional readFallback _, Record.isSome_slot readDescription _, List.forall_mem_nil _⟩

end Variable

namespace Comment

/-- The keys of a comment are written again. -/
def Respelled : Json → Json → Prop := Json.Objects (Flowchart.Respelled fieldNames [] [])

theorem respelled_of_check {v : Json} {c : Comment} (distinct : v.DistinctKeys)
    (checked : Comment.check v = .ok c) : Respelled v c.toJson := by
  obtain ⟨fields, rfl, built, accepted⟩ := Check.entity_eq_ok_iff.1 checked
  simp only [Checked.seq_eq_ok, Checked.map_eq_ok] at built
  obtain ⟨_, nodeIds, ⟨_, color, ⟨_, text, ⟨_, size, ⟨_, position, ⟨id, readId, rfl⟩, readPosition, rfl⟩,
    readSize, rfl⟩, readText, rfl⟩, readColor, rfl⟩, readNodeIds, rfl⟩ := built
  refine ⟨fields, _, rfl, rfl, Layout.respelled_alone (layout _) (by decide)
    (Json.distinctKeys_object.1 distinct).1 accepted ?_ (List.forall_mem_nil _) (List.forall_mem_nil _)⟩
  simp only [entries, List.forall_mem_cons]
  exact ⟨Record.isSome_required readId, Record.isSome_required readPosition,
    Record.isSome_required readSize, Record.isSome_optional readText _, Record.isSome_slot readColor _,
    Record.isSome_slot readNodeIds _, List.forall_mem_nil _⟩

end Comment

namespace Viewport

/-- The keys of a viewport are written again. -/
def Respelled : Json → Json → Prop := Json.Objects (Flowchart.Respelled fieldNames [] [])

theorem respelled_of_check {v : Json} {viewport : Viewport} (distinct : v.DistinctKeys)
    (checked : Viewport.check v = .ok viewport) : Respelled v viewport.toJson := by
  obtain ⟨fields, rfl, built, accepted⟩ := Check.entity_eq_ok_iff.1 checked
  simp only [Checked.seq_eq_ok, Checked.map_eq_ok] at built
  obtain ⟨_, panY, ⟨_, panX, ⟨zoom, readZoom, rfl⟩, readX, rfl⟩, readY, rfl⟩ := built
  refine ⟨fields, _, rfl, rfl, Layout.respelled_alone (layout _) (by decide)
    (Json.distinctKeys_object.1 distinct).1 accepted ?_ (List.forall_mem_nil _) (List.forall_mem_nil _)⟩
  simp only [entries, List.forall_mem_cons]
  exact ⟨Record.isSome_optional readZoom _, Record.isSome_optional readX _, Record.isSome_optional readY _,
    List.forall_mem_nil _⟩

end Viewport

/-! ### Flowcharts -/

namespace Document

/-- The fields that are always written. -/
def listNames : List FieldName := [.nodes, .connections, .vars, .comments]

/-- The keys of a flowchart and of all its parts are written again, and the lists that it lacks. -/
def Respelled : Json → Json → Prop :=
  Json.Objects (Flowchart.Respelled fieldNames listNames
    [(.nodes, Json.Lists Node.Respelled), (.connections, Json.Lists Connection.Respelled),
      (.vars, Json.Lists Variable.Respelled), (.comments, Json.Lists Comment.Respelled),
      (.viewport, Json.OrNull Viewport.Respelled)])

theorem respelled_of_check {v : Json} {d : Document} (distinct : v.DistinctKeys)
    (checked : Document.check v = .ok d) : Respelled v d.toJson := by
  obtain ⟨fields, rfl, built, accepted⟩ := Check.entity_eq_ok_iff.1 checked
  obtain ⟨keys, values⟩ := Json.distinctKeys_object.1 distinct
  simp only [Checked.seq_eq_ok, Checked.map_eq_ok] at built
  obtain ⟨_, viewport, ⟨_, _, ⟨_, _, ⟨_, _, ⟨_, ⟨nodes, readNodes, rfl⟩, rfl⟩, ⟨connections,
    readConnections, rfl⟩, rfl⟩, ⟨vars, readVars, rfl⟩, rfl⟩, ⟨comments, readComments, rfl⟩, rfl⟩,
    readViewport, rfl⟩ := built
  have list {α : Type} {name : FieldName} {check : Json → Checked α} {write : α → Json}
      {R : Json → Json → Prop} {read : Option (List α)} {key : String} {v : Json}
      (each : ∀ item a, item.DistinctKeys → check item = .ok a → R item (write a))
      (optional : Record.optional ⟨fields⟩ name (Check.list check) = .ok read)
      (found : (Record.mk fields).find? name = some (key, v)) :
      Json.Lists R v (.array ((Collection.ofRead read).reread.items.map write)) := by
    obtain ⟨items, rfl, checked⟩ := Record.optional_of_find? optional found
    exact Json.lists_of_list checked (values _ (Record.mem_of_find? found)) each
  refine ⟨fields, _, rfl, rfl, Layout.respelled (layout _) (by decide) keys accepted
    (List.sublist_append_left listNames [.viewport]) (by decide) ?_ ?_ ?_⟩
  · simp only [entries, List.forall_mem_cons]
    refine ⟨iff_of_true rfl (.inr (by decide)), iff_of_true rfl (.inr (by decide)),
      iff_of_true rfl (.inr (by decide)), iff_of_true rfl (.inr (by decide)), ?_, List.forall_mem_nil _⟩
    rw [Record.isSome_slot readViewport Viewport.toJson]
    exact (or_iff_left (by decide)).symm
  · simp [fieldNames]
  · simp only [List.forall_mem_cons]
    refine ⟨fun key v found => ?_, fun key v found => ?_, fun key v found => ?_, fun key v found => ?_,
      fun key v found => ?_, List.forall_mem_nil _⟩
    · exact ⟨_, by simp [entries, reread], list (fun _ _ => Node.respelled_of_check) readNodes found⟩
    · exact ⟨_, by simp [entries, reread],
        list (fun _ _ => Connection.respelled_of_check) readConnections found⟩
    · exact ⟨_, by simp [entries, reread], list (fun _ _ => Variable.respelled_of_check) readVars found⟩
    · exact ⟨_, by simp [entries, reread], list (fun _ _ => Comment.respelled_of_check) readComments found⟩
    · obtain ⟨rfl, rfl⟩ | ⟨a, rfl, read⟩ := Record.slot_of_find? readViewport found
      · exact ⟨.null, by simp [entries, Slot.json?], .inl ⟨rfl, rfl⟩⟩
      · exact ⟨a.toJson, by simp [entries, Slot.json?],
          .inr (Viewport.respelled_of_check (values _ (Record.mem_of_find? found)) read)⟩

/-- A flowchart that was given all lists is read back as it is. -/
theorem reread_of_check {fields : Fields} {d : Document} (checked : Document.check (.object fields) = .ok d)
    (given : ∀ name ∈ listNames, name.wire ∈ fields.keys) : d.reread = d := by
  obtain ⟨_, same, built, -⟩ := Check.entity_eq_ok_iff.1 checked
  cases same
  simp only [Checked.seq_eq_ok, Checked.map_eq_ok] at built
  obtain ⟨_, viewport, ⟨_, _, ⟨_, _, ⟨_, _, ⟨_, ⟨nodes, readNodes, rfl⟩, rfl⟩, ⟨connections,
    readConnections, rfl⟩, rfl⟩, ⟨vars, readVars, rfl⟩, rfl⟩, ⟨comments, readComments, rfl⟩, rfl⟩, -,
    rfl⟩ := built
  have list {α : Type} {name : FieldName} {check : Json → Checked α} {read : Option (List α)}
      (optional : Record.optional ⟨fields⟩ name (Check.list check) = .ok read) (known : name ∈ listNames) :
      (Collection.ofRead read).reread = Collection.ofRead read := by
    cases read with
    | some items => rfl
    | none =>
      have found := Record.isSome_optional optional fun _ => .null
      refine absurd (given name known) (Record.not_mem_of_find? ?_)
      simpa using found
  simp only [reread, list readNodes (by simp [listNames]), list readConnections (by simp [listNames]),
    list readVars (by simp [listNames]), list readComments (by simp [listNames])]

end Document

/-! ### Whole payloads -/

/-- The value that a payload carries. -/
def Payload.Holds : Payload → Json → Prop
  | .value held, v => held = v
  | .text s, v => Json.parse s = .ok v
  | .bytes raw, v => ∃ chars, Json.decodeBytes? raw = some chars ∧ Json.read chars = .ok v

namespace Document

/-- A payload that is read holds an object, and the flowchart is what is read of it. -/
theorem read_eq_ok {payload : Payload} {d : Document} (read : Document.read payload = .ok d) :
    ∃ fields, payload.Holds (.object fields) ∧ check (.object fields) = .ok d := by
  have ofJson {v : Json} (made : ofJson v = .ok d) : ∃ fields, v = .object fields ∧ check v = .ok d := by
    unfold ofJson at made
    split at made
    next fields =>
      split at made
      next checked =>
        cases made
        exact ⟨fields, rfl, checked⟩
      next => cases made
    next => cases made
  cases payload with
  | value v =>
    obtain ⟨fields, rfl, checked⟩ := ofJson read
    exact ⟨fields, rfl, checked⟩
  | text text =>
    simp only [Document.read] at read
    split at read
    next parsed =>
      obtain ⟨fields, rfl, checked⟩ := ofJson read
      exact ⟨fields, parsed, checked⟩
    next => cases read
  | bytes bytes =>
    simp only [Document.read] at read
    split at read
    next => cases read
    next decoded =>
      split at read
      next parsed =>
        obtain ⟨fields, rfl, checked⟩ := ofJson read
        exact ⟨fields, ⟨_, decoded, parsed⟩, checked⟩
      next => cases read

end Document

theorem Payload.Holds.distinctKeys {payload : Payload} {v : Json} (holds : payload.Holds v)
    (distinct : payload.DistinctKeys) : v.DistinctKeys := by
  cases payload with
  | value held => exact holds ▸ distinct
  | text text => exact Json.parse_distinctKeys holds
  | bytes bytes =>
    obtain ⟨_, -, read⟩ := holds
    exact Json.read_distinctKeys read

/-- What comes of writing a flowchart that was read, and of reading and writing it again: `again` is read of
the first text and `third` of the second. -/
structure Document.Cycle (payload : Payload) (indent : Option Nat) (d again third : Document) : Prop where
  readFirst : Document.read (.text (d.render indent)) = .ok again
  readSecond : Document.read (.text (again.render indent)) = .ok third
  /-- The two texts hold the same object, up to the order of its own keys, and differ in that order only. -/
  sameValue : ∃ first second, Json.parse (d.render indent) = .ok (.object first) ∧
    Json.parse (again.render indent) = .ok (.object second) ∧ first.Perm second ∧
      d.render indent = (Json.object first).render indent ∧
      again.render indent = (Json.object second).render indent
  /-- From the second text on, the same is written. -/
  stable : third.render indent = again.render indent
  /-- The text has the keys of the payload, and is stable at once if the payload has all lists. -/
  keys : ∃ fields written : Fields, payload.Holds (.object fields) ∧
    Json.parse (d.render indent) = .ok (.object written) ∧
      Document.Respelled (.object fields) (.object written) ∧
      ((∀ name ∈ Document.listNames, name.wire ∈ fields.keys) → again.render indent = d.render indent)

/-- Every flowchart that was read is written, read and written again without loss. -/
theorem Document.exists_cycle {payload : Payload} (distinct : payload.DistinctKeys) {d : Document}
    (read : Document.read payload = .ok d) (indent : Option Nat) :
    ∃ again third, Document.Cycle payload indent d again third := by
  have sound := sound_of_read distinct read
  obtain ⟨fields, holds, checked⟩ := read_eq_ok read
  have parsed : Json.parse (d.render indent) = .ok (.object d.toFields) :=
    Json.parse_render indent (distinctKeys_toJson sound)
  have reparsed : Json.parse (d.reread.render indent) = .ok (.object d.reread.toFields) :=
    Json.parse_render indent (distinctKeys_toJson sound.reread)
  -- a flowchart that was read back is read back as it is
  have settled : d.reread.reread = d.reread := rfl
  refine ⟨d.reread, d.reread.reread, read_render sound indent, read_render sound.reread indent,
    ⟨_, _, parsed, reparsed, d.toFields_reread_perm, rfl, rfl⟩, congrArg (render indent) settled,
    fields, _, holds, parsed, respelled_of_check (holds.distinctKeys distinct) checked, fun given => ?_⟩
  rw [reread_of_check checked given]

/-- A flowchart with both spellings of keys, a null and no comments, as it comes in. -/
def samplePayload : Payload :=
  .value (.object [("viewport", .object [("pan_x", .string "1.5")]), ("variables", .array []),
    ("nodes", .array [.object [("type", .string "note"), ("id", .string "n"), ("label", .null),
      ("output_pins", .array [.object [("id", .string "p"), ("name", .string "P"),
        ("type", .string "number"), ("required", .string "no"), ("defaultValue", .null)]])]]),
    ("connections", .array [])])

theorem Document.exists_cycle_sample : ∃ d again third, Document.read samplePayload = .ok d ∧
    Document.Cycle samplePayload (some 2) d again third := by
  have distinct : samplePayload.DistinctKeys := by
    simp [samplePayload, Payload.DistinctKeys, Json.DistinctKeys, Json.ItemsDistinct, Json.FieldsDistinct,
      Json.Fields.keys]
  obtain ⟨d, read⟩ : ∃ d, Document.read samplePayload = .ok d := ⟨_, rfl⟩
  obtain ⟨again, third, cycle⟩ := Document.exists_cycle distinct read (some 2)
  exact ⟨d, again, third, read, cycle⟩

end Flowchart
