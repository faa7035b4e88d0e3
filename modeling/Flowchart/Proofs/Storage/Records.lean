import Flowchart.Json.Measure
import Flowchart.Proofs.Document.Respelling
import Flowchart.Proofs.Storage.StoredText
import Flowchart.Proofs.Storage.Timestamps

/-!
# Records that are read back

* `StoredDocument.Sound`: the records that the store writes when it is given versions that are not negative and
  flowcharts of values that can be read.
* `StoredDocument.Proper`: those that the store writes when it is also given names, and flowcharts that were read.
* `StoredDocument.Same`: records that say the same, flowcharts that are written alike included.
* `StoredDocument.IsReadable`: the record has a name and is not nested deeper than the reader of files goes. A sound
  record is read back as it is if it is readable, and only then.
-/

namespace Flowchart

/-! ### Flowcharts -/

/-- The flowcharts are written as the same object, whose keys may be in another order, and have as many nodes and
connections. -/
structure Document.Same (d other : Document) : Prop where
  wire : d.toFields.Perm other.toFields
  nodes : d.nodes.items.length = other.nodes.items.length
  connections : d.connections.items.length = other.connections.items.length

/-- The flowchart was read from a payload. -/
def Document.IsRead (d : Document) : Prop :=
  ∃ payload : Payload, payload.DistinctKeys ∧ Document.read payload = .ok d

/-- The flowchart is written without loss: its values are those that can be read, and no list that was not given
has nodes or connections. -/
structure Document.Kept (d : Document) : Prop where
  sound : d.Sound
  nodes : d.nodes.reread.items = d.nodes.items
  connections : d.connections.reread.items = d.connections.items

namespace Document

theorem Same.refl (d : Document) : d.Same d := ⟨.refl _, rfl, rfl⟩

theorem Kept.reread {d : Document} (kept : d.Kept) : d.reread.Kept := ⟨kept.sound.reread, rfl, rfl⟩

theorem Kept.same {d : Document} (kept : d.Kept) : d.reread.Same d :=
  ⟨d.toFields_reread_perm.symm, congrArg List.length kept.nodes, congrArg List.length kept.connections⟩

theorem IsRead.kept {d : Document} (isRead : d.IsRead) : d.Kept := by
  obtain ⟨payload, distinct, read⟩ := isRead
  obtain ⟨fields, -, checked⟩ := read_eq_ok read
  obtain ⟨_, -, built⟩ := Check.entity_eq_ok checked
  simp only [Checked.seq_eq_ok, Checked.map_eq_ok] at built
  obtain
    ⟨_, _, ⟨_, _, ⟨_, _, ⟨_, _, ⟨_, ⟨nodes, -, rfl⟩, rfl⟩, ⟨connections, -, rfl⟩, rfl⟩, -, rfl⟩, -, rfl⟩, -, rfl⟩ := built
  exact ⟨sound_of_read distinct read, by cases nodes <;> rfl, by cases connections <;> rfl⟩

end Document

/-! ### Records -/

namespace StoredDocument

/-- The records say the same. -/
structure Same (s other : StoredDocument) : Prop where
  id : s.id = other.id
  ownerId : s.ownerId = other.ownerId
  name : s.name = other.name
  description : s.description = other.description
  version : s.version = other.version
  createdAt : s.createdAt = other.createdAt
  updatedAt : s.updatedAt = other.updatedAt
  document : s.document.Same other.document

/-- The record has a version that is not negative, a flowchart whose values are those that can be read, and times of
a clock that shows universal time. -/
structure Sound (s : StoredDocument) : Prop where
  version : 0 ≤ s.version
  document : s.document.Sound
  createdAt : s.createdAt.IsUniversal
  updatedAt : s.updatedAt.IsUniversal

/-- The record has a name, a version that is not negative, a flowchart that is written without loss, and times of
a clock that shows universal time. -/
structure Proper (s : StoredDocument) : Prop where
  name : s.name ≠ ""
  version : 0 ≤ s.version
  document : s.document.Kept
  createdAt : s.createdAt.IsUniversal
  updatedAt : s.updatedAt.IsUniversal

/-- The record, with its flowchart as it is read back. -/
def reread (s : StoredDocument) : StoredDocument := { s with document := s.document.reread }

/-- The reader of files takes back what is printed for the record: it is not nested too deep. -/
def ReadsBack (s : StoredDocument) : Prop := (s.toJson "document").depth ≤ depthLimit

instance (s : StoredDocument) : Decidable s.ReadsBack := inferInstanceAs (Decidable (_ ≤ _))

/-- The file of the record can be read: it has a name, and is not nested too deep. -/
def IsReadable (s : StoredDocument) : Prop := s.name ≠ "" ∧ s.ReadsBack

instance (s : StoredDocument) : Decidable s.IsReadable := inferInstanceAs (Decidable (_ ∧ _))

variable {s other : StoredDocument}

theorem Sound.sample : sample.Sound where
  version := le_rfl
  document := sound_sample
  createdAt := ⟨rfl, by simp [StoredDocument.sample], by simp [StoredDocument.sample]⟩
  updatedAt := ⟨rfl, by simp [StoredDocument.sample], by simp [StoredDocument.sample]⟩

theorem Sound.reread (sound : s.Sound) : s.reread.Sound := { sound with document := sound.document.reread }

theorem Proper.sound (proper : s.Proper) : s.Sound := { proper with document := proper.document.sound }

theorem Proper.isReadable_iff (proper : s.Proper) : s.IsReadable ↔ s.ReadsBack := and_iff_right proper.name

theorem Proper.same (proper : s.Proper) : s.reread.Same s :=
  ⟨rfl, rfl, rfl, rfl, rfl, rfl, rfl, proper.document.same⟩

theorem Proper.reread (proper : s.Proper) : s.reread.Proper := { proper with document := proper.document.reread }

theorem Same.header_eq (same : s.Same other) : s.header = other.header := by
  simp only [header, same.id, same.ownerId, same.name, same.description, same.version, same.createdAt,
    same.updatedAt]

/-- Records that say the same have the same entry in a list. -/
theorem Same.summary_eq (same : s.Same other) : s.summary = other.summary := by
  rw [summary, summary, same.header_eq, same.document.nodes, same.document.connections]

/-- A record is nested one deeper than its flowchart. -/
theorem readsBack_iff (s : StoredDocument) : s.ReadsBack ↔ s.document.toJson.depth < depthLimit := by
  have description : (Json.nullable .string s.description).depth = 0 := by cases s.description <;> rfl
  have depth : (s.toJson "document").depth = s.document.toJson.depth + 1 := by
    simp [toJson, header, Json.depth, Json.depthOfFields, description]
  rw [ReadsBack, depth]
  rfl

theorem Sound.check_toJson (sound : s.Sound) (named : s.name ≠ "") (now : Timestamp) :
    check now (s.toJson "document") = .ok s.reread := by
  have layout := s.layout
  have version : Check.atLeast 0 Check.integer (.int s.version) = .ok s.version := by
    simp [Check.atLeast, Check.demand, Check.integer, Checked.andThen, sound.version]
  have description : Record.slot ⟨s.header ++ [("document", s.document.toJson)]⟩ .description Check.text =
      .ok (Slot.ofOption s.description) := by
    refine layout.slot .string ?_ fun text _ => ⟨fun same => (by cases same), rfl⟩
    cases given : s.description <;> simp [entries, given, Slot.ofOption, Slot.json?, Json.nullable]
  have readId := layout.required (show (.id, some (.string s.id)) ∈ s.entries by simp [entries])
    (show Check.text _ = .ok s.id from rfl)
  have readOwner := layout.required
    (show (⟨"ownerId", "owner_id"⟩, some (.string s.ownerId)) ∈ s.entries by simp [entries])
    (show Check.text _ = .ok s.ownerId from rfl)
  have readName := layout.required (show (.name, some (.string s.name)) ∈ s.entries by simp [entries])
    (Check.name_string (by simpa using named))
  have readDocument := layout.required
    (show (.plain "document", some s.document.toJson) ∈ s.entries by simp [entries])
    (Document.check_toJson sound.document)
  have readVersion := layout.optional (o := some s.version) Json.int
    (show (.plain "version", _) ∈ s.entries by simp [entries]) fun _ same => Option.some.inj same ▸ version
  have readCreated := layout.optional (o := some s.createdAt) (fun t => .string t.text)
    (show (⟨"createdAt", "created_at"⟩, _) ∈ s.entries by simp [entries])
    fun _ same => Option.some.inj same ▸ Timestamp.check_text sound.createdAt
  have readUpdated := layout.optional (o := some s.updatedAt) (fun t => .string t.text)
    (show (⟨"updatedAt", "updated_at"⟩, _) ∈ s.entries by simp [entries])
    fun _ same => Option.some.inj same ▸ Timestamp.check_text sound.updatedAt
  have back : (Slot.ofOption s.description).get? = s.description := by cases s.description <;> rfl
  simp only [toJson, check, Check.openEntity, readId, readOwner, readName, description, readDocument,
    readVersion, readCreated, readUpdated]
  simp only [Functor.map, Checked.map, Seq.seq, Checked.apply, back, Option.getD_some]
  rfl

/-- A record without a name is not read, whatever else it bears. -/
theorem name_ne_empty_of_check {now : Timestamp} {back : StoredDocument}
    (checked : check now (s.toJson "document") = .ok back) : s.name ≠ "" := by
  have layout := s.layout
  simp only [toJson, check, Check.openEntity, Checked.seq_eq_ok, Checked.map_eq_ok] at checked
  obtain ⟨_, _, ⟨_, _, ⟨_, _, ⟨_, _, ⟨_, _, ⟨_, name, ⟨_, _, -, -, rfl⟩, readName, rfl⟩, -, rfl⟩, -, rfl⟩, -, rfl⟩, -,
    rfl⟩, -, rfl⟩ := checked
  rw [layout.required_eq_ok_iff (v := .string s.name) (by simp [entries])] at readName
  intro unnamed
  rw [unnamed] at readName
  cases readName

/-- A sound record is read back if it has a name and the reader takes back what was printed. -/
theorem Sound.parse_render_eq (sound : s.Sound) (readable : s.IsReadable) (now : Timestamp) :
    parse now s.render = .ok s.reread :=
  parse_render sound.document readable.2 (sound.check_toJson readable.1 now)

/-- If not, it is not read at all. -/
theorem Sound.isReadable_of_parse (sound : s.Sound) {now : Timestamp} {back : StoredDocument}
    (parsed : parse now s.render = .ok back) : s.IsReadable := by
  obtain ⟨v, decoded, flat, checked⟩ := check_of_parse parsed
  cases (s.parse_text sound.document).symm.trans decoded
  exact ⟨name_ne_empty_of_check checked, flat⟩

end StoredDocument

end Flowchart
