import Flowchart.Document.Check
import Flowchart.Document.Wire
import Flowchart.Proofs.Json.Fields
import Flowchart.Proofs.Results

/-!
# Objects that are written with the fields they were given

* `Fields.given`: the fields of a layout that have a value.
* `Layout`: fields that are those of a layout, which lists every field of an entity once.
* `Layout.required`, `Layout.optional`, `Layout.slot`, `Layout.look`: a field of a layout is read back.
* `Layout.entity`, `Layout.distinctKeys`: what holds of the object as a whole.
-/

namespace Flowchart

namespace Json.Fields

/-- The fields of a layout that have a value, in its order. -/
def given (entries : List (FieldName × Option Json)) : Fields :=
  entries.filterMap fun entry => entry.2.map (entry.1.wire, ·)

variable {entries : List (FieldName × Option Json)} {name : FieldName} {value : Option Json}

theorem exists_of_mem_given {field : String × Json} (mem : field ∈ given entries) :
    ∃ name, (name, some field.2) ∈ entries ∧ name.wire = field.1 := by
  obtain ⟨⟨name, o⟩, listed, made⟩ := List.mem_filterMap.1 mem
  obtain ⟨v, same, rfl⟩ := Option.map_eq_some_iff.1 made
  exact ⟨name, same ▸ listed, rfl⟩

theorem keys_given_sublist (entries : List (FieldName × Option Json)) :
    (given entries).keys.Sublist (entries.map fun entry => entry.1.wire) := by
  induction entries with
  | nil => exact .slnil
  | cons entry entries ih =>
    obtain ⟨name, o⟩ := entry
    cases o with
    | none => exact .cons _ ih
    | some v => exact .cons_cons _ ih

theorem get?_given (distinct : (entries.map fun entry => entry.1.wire).Nodup)
    (mem : (name, value) ∈ entries) : (given entries).get? name.wire = value := by
  induction entries with
  | nil => cases mem
  | cons entry entries ih =>
    obtain ⟨first, o⟩ := entry
    simp only [List.map_cons, List.nodup_cons] at distinct
    obtain ⟨rfl, rfl⟩ | later := (List.mem_cons.1 mem).imp_left Prod.mk.inj
    · cases value with
      | some v => exact if_pos rfl
      | none =>
        -- nothing is written here, and no later field has the name
        exact get?_eq_none_iff.2 fun mem => distinct.1 ((keys_given_sublist entries).subset mem)
    · have other : first.wire ≠ name.wire := fun same =>
        distinct.1 (same ▸ List.mem_map_of_mem (f := fun entry => entry.1.wire) later)
      cases o with
      | none => exact ih distinct.2 later
      | some v => exact (if_neg other).trans (ih distinct.2 later)

/-! ### Layouts are what writers write -/

variable (rest : List (FieldName × Option Json))

theorem given_nil : given [] = [] := rfl

theorem given_field (v : Json) : given ((name, some v) :: rest) = (name.wire, v) :: given rest := rfl

theorem given_optional (write : α → Json) (o : Option α) :
    given ((name, o.map write) :: rest) = writeGiven name.wire write o ++ given rest := by
  cases o <;> rfl

end Json.Fields

open Json (Fields)

/-- The value that a slot is written as. -/
def Slot.json? (write : α → Json) : Slot α → Option Json
  | absent => none
  | null => some .null
  | value a => some (write a)

/-- The value that a look is written as. -/
def Look.json? (write : α → Json) : Look α → Option Json
  | absent => none
  | null => some .null
  | value a => some (write a)
  | unlike v => some v

theorem Json.Fields.given_slot {name : FieldName} (rest : List (FieldName × Option Json))
    (write : α → Json) (slot : Slot α) :
    given ((name, slot.json? write) :: rest) = slot.write name.wire write ++ given rest := by
  cases slot <;> rfl

theorem Json.Fields.given_look {name : FieldName} (rest : List (FieldName × Option Json))
    (write : α → Json) (look : Look α) :
    given ((name, look.json? write) :: rest) = look.write name.wire write ++ given rest := by
  cases look <;> rfl

/-- Whether a look is of its own kind. -/
def Look.Sound (look : Look α) : Prop := ∀ v, look ≠ .unlike v

theorem Look.sound_ofSlot (slot : Slot α) : (Look.ofSlot slot).Sound := by
  cases slot <;> exact fun v same => by cases same

theorem Look.Sound.exists_slot {look : Look α} (sound : look.Sound) :
    ∃ slot, Look.ofSlot slot = look := by
  cases look with
  | absent => exact ⟨.absent, rfl⟩
  | null => exact ⟨.null, rfl⟩
  | value a => exact ⟨.value a, rfl⟩
  | unlike v => exact absurd rfl (sound v)

/-! ### Where a field that is read comes from -/

namespace Record

variable {r : Record} {name : FieldName} {check : Json → Checked α} {a : α}

theorem mem_of_find? {key : String} {v : Json} (found : r.find? name = some (key, v)) :
    (key, v) ∈ r.fields := by
  unfold find? at found
  split at found
  next value same =>
    cases found
    exact Fields.mem_of_get?_eq_some same
  next =>
    obtain ⟨value, same, made⟩ := Option.map_eq_some_iff.1 found
    cases made
    exact Fields.mem_of_get?_eq_some same

theorem required_eq_ok (read : r.required name check = .ok a) :
    ∃ field ∈ r.fields, check field.2 = .ok a := by
  unfold required at read
  split at read
  next found => exact ⟨_, mem_of_find? found, Checked.under_eq_ok.1 read⟩
  next => cases read

theorem optional_eq_some (read : r.optional name check = .ok (some a)) :
    ∃ field ∈ r.fields, check field.2 = .ok a := by
  unfold optional at read
  split at read
  next found =>
    obtain ⟨_, checked, made⟩ := Checked.map_eq_ok.1 read
    cases made
    exact ⟨_, mem_of_find? found, Checked.under_eq_ok.1 checked⟩
  next => cases read

theorem slot_eq_value (read : r.slot name check = .ok (.value a)) :
    ∃ field ∈ r.fields, check field.2 = .ok a := by
  unfold slot at read
  split at read
  next => cases read
  next found =>
    obtain ⟨_, checked, made⟩ := Checked.map_eq_ok.1 read
    cases made
    exact ⟨_, mem_of_find? found, Checked.under_eq_ok.1 checked⟩
  next => cases read

end Record

theorem Check.entity_eq_ok {kind : String} {names : List FieldName} {build : Record → Checked α}
    {v : Json} {a : α} (read : Check.entity kind names build v = .ok a) :
    ∃ fields, v = .object fields ∧ build ⟨fields⟩ = .ok a := by
  unfold Check.entity at read
  split at read
  next fields =>
    obtain ⟨_, _, made, -, rfl⟩ := Checked.seq_eq_ok.1 read
    obtain ⟨_, built, rfl⟩ := Checked.map_eq_ok.1 made
    exact ⟨fields, rfl, built⟩
  next => cases read

/-! ### Layouts -/

/-- Fields that are those of a layout, in any order. The layout lists every field of an entity once, and
another spelling of a field is the name of no other field. -/
structure Layout (names : List FieldName) (entries : List (FieldName × Option Json))
    (fields : Fields) : Prop where
  written : fields.Perm (Fields.given entries)
  listed : entries.map Prod.fst = names
  distinct : (names.map FieldName.wire).Nodup
  apart : ∀ name ∈ names, name.alternate = name.wire ∨ name.alternate ∉ names.map FieldName.wire

namespace Layout

variable {names : List FieldName} {entries : List (FieldName × Option Json)} {fields : Fields}
  {name : FieldName} {value : Option Json}

theorem wires (layout : Layout names entries fields) :
    (entries.map fun entry => entry.1.wire) = names.map FieldName.wire := by
  rw [← layout.listed, List.map_map]
  rfl

theorem keys_nodup (layout : Layout names entries fields) : fields.keys.Nodup := by
  have keys : (Fields.given entries).keys.Nodup :=
    (layout.wires ▸ layout.distinct).sublist (Fields.keys_given_sublist entries)
  exact (layout.written.map Prod.fst).nodup_iff.2 keys

/-- Fields that were written are fields of the entity. -/
theorem known (layout : Layout names entries fields) {field : String × Json} (mem : field ∈ fields) :
    ∃ name ∈ names, name.wire = field.1 ∧ (name, some field.2) ∈ entries := by
  obtain ⟨name, mem, same⟩ := Fields.exists_of_mem_given (layout.written.subset mem)
  exact ⟨name, layout.listed ▸ List.mem_map_of_mem (f := Prod.fst) mem, same, mem⟩

theorem find? (layout : Layout names entries fields) (mem : (name, value) ∈ entries) :
    (Record.mk fields).find? name = value.map (name.wire, ·) := by
  have known : name ∈ names := layout.listed ▸ List.mem_map_of_mem (f := Prod.fst) mem
  have found : fields.get? name.wire = value := by
    rw [Fields.get?_perm layout.keys_nodup layout.written]
    exact Fields.get?_given (layout.wires ▸ layout.distinct) mem
  unfold Record.find?
  cases value with
  | some v => simp only [found, Option.map_some]
  | none =>
    -- nor is the other spelling there, as it is the name of no field of the entity
    have missing : fields.get? name.alternate = none := by
      obtain same | other := layout.apart name known
      · rw [same, found]
      · refine Fields.get?_eq_none_iff.2 fun mem => other ?_
        obtain ⟨field, mem, same⟩ := List.mem_map.1 mem
        obtain ⟨name, known, wire, -⟩ := layout.known mem
        exact same ▸ wire ▸ List.mem_map_of_mem known
    simp only [found, missing, Option.map_none]

theorem required_eq_ok_iff (layout : Layout names entries fields) {v : Json}
    (mem : (name, some v) ∈ entries) {check : Json → Checked α} {a : α} :
    (Record.mk fields).required name check = .ok a ↔ check v = .ok a := by
  rw [Record.required, layout.find? mem]
  exact Checked.under_eq_ok

theorem required (layout : Layout names entries fields) {v : Json} (mem : (name, some v) ∈ entries)
    {check : Json → Checked α} {a : α} (checked : check v = .ok a) :
    (Record.mk fields).required name check = .ok a :=
  (layout.required_eq_ok_iff mem).2 checked

theorem optional (layout : Layout names entries fields) {o : Option α} (write : α → Json)
    (mem : (name, o.map write) ∈ entries) {check : Json → Checked α}
    (checked : ∀ a, o = some a → check (write a) = .ok a) :
    (Record.mk fields).optional name check = .ok o := by
  rw [Record.optional, layout.find? mem]
  cases o with
  | none => rfl
  | some a =>
    simp only [Option.map_some, checked a rfl]
    rfl

theorem optional_eq_ok_iff (layout : Layout names entries fields) {v : Json}
    (mem : (name, some v) ∈ entries) {check : Json → Checked α} {o : Option α} :
    (Record.mk fields).optional name check = .ok o ↔ ∃ a, check v = .ok a ∧ some a = o := by
  rw [Record.optional, layout.find? mem]
  simp only [Option.map_some, Checked.map_eq_ok, Checked.under_eq_ok]

theorem slot (layout : Layout names entries fields) {o : Slot α} (write : α → Json)
    (mem : (name, o.json? write) ∈ entries) {check : Json → Checked α}
    (checked : ∀ a, o = .value a → write a ≠ .null ∧ check (write a) = .ok a) :
    (Record.mk fields).slot name check = .ok o := by
  rw [Record.slot, layout.find? mem]
  cases o with
  | absent => rfl
  | null => rfl
  | value a =>
    obtain ⟨notNull, checked⟩ := checked a rfl
    simp only [Slot.json?, Option.map_some, checked]
    rfl

theorem look (layout : Layout names entries fields) {o : Look α} (sound : o.Sound)
    (write : α → Json) (mem : (name, o.json? write) ∈ entries) {check : Json → Checked α}
    (checked : ∀ a, write a ≠ .null ∧ check (write a) = .ok a) :
    Look.ofSlot <$> (Record.mk fields).slot name check = .ok o := by
  obtain ⟨slot, rfl⟩ := sound.exists_slot
  have written : (Look.ofSlot slot).json? write = slot.json? write := by cases slot <;> rfl
  rw [layout.slot write (written ▸ mem) fun a _ => checked a]
  rfl

theorem noOthers (layout : Layout names entries fields) :
    (Record.mk fields).noOthers names = .ok () := by
  -- whatever was written is a field of the entity under its own name
  have used : fields.filter (fun field => !(Record.mk fields).isUsed names field.1) = [] := by
    refine List.filter_eq_nil_iff.2 fun field mem => ?_
    obtain ⟨name, known, same, -⟩ := layout.known mem
    have found : (Record.mk fields).isUsed names field.1 = true :=
      List.any_eq_true.2 ⟨name, known, by simp [same]⟩
    simp [found]
  unfold Record.noOthers
  simp only [used]

/-- An entity is read back when its fields are. -/
theorem entity (layout : Layout names entries fields) {build : Record → Checked α} {a : α}
    (built : build ⟨fields⟩ = .ok a) (kind : String) :
    Check.entity kind names build (.object fields) = .ok a := by
  rw [Check.entity, built, layout.noOthers]
  rfl

/-- An entity that is written by a layout has distinct keys if its values have. -/
theorem distinctKeys (layout : Layout names entries fields)
    (values : ∀ entry ∈ entries, ∀ v ∈ entry.2, v.DistinctKeys) :
    (Json.object fields).DistinctKeys := by
  refine Json.distinctKeys_object.2 ⟨layout.keys_nodup, fun field mem => ?_⟩
  obtain ⟨name, -, -, mem⟩ := layout.known mem
  exact values _ mem _ rfl

end Layout

end Flowchart
