import Flowchart.Proofs.Document.RoundTrip
import Flowchart.Storage.StoredDocument

/-!
# The text of a stored flowchart

* `StoredDocument.stamp?`: the version and the flowchart that stand in the text of a file, whether or not
  the text can be read as a stored flowchart.
* `StoredDocument.eq_of_parse_render`: what is read from a text that was written is what was written, with
  the flowchart as it is read back. A text is not read if the name in it is empty, or if it is nested
  too deep.
-/

namespace Flowchart

theorem Collection.reread_reread (c : Collection α) : c.reread.reread = c.reread := rfl

theorem Document.reread_reread (d : Document) : d.reread.reread = d.reread := rfl

theorem Check.le_of_atLeast {check : Json → Checked Int} {bound m : Int} {v : Json}
    (checked : Check.atLeast bound check v = .ok m) : bound ≤ m := by
  simp only [atLeast, demand, Checked.andThen] at checked
  split at checked
  next =>
    split at checked
    next holds =>
      cases checked
      simpa using holds
    next => cases checked
  next => cases checked

theorem Check.atLeast_integer_eq_ok {bound n m : Int}
    (checked : Check.atLeast bound Check.integer (.int n) = .ok m) : m = n ∧ bound ≤ n := by
  have holds := le_of_atLeast checked
  simp only [atLeast, demand, integer, Checked.andThen] at checked
  split at checked
  next =>
    cases checked
    exact ⟨rfl, holds⟩
  next => cases checked

theorem Check.text_eq_ok {s t : String} (checked : Check.text (.string s) = .ok t) : t = s := by
  cases checked
  rfl

namespace StoredDocument

/-- The version and the flowchart that stand in the text of a file. -/
def stamp? (text : String) : Option (Int × Document) :=
  match Json.parse text with
  | .error _ => none
  | .ok v =>
    match v.field? "version", v.field? "document" with
    | some (.int version), some d =>
      match Document.check d with
      | .ok d => some (version, d)
      | .bad _ => none
    | _, _ => none

def fieldNames : List FieldName :=
  [.id, ⟨"ownerId", "owner_id"⟩, .name, .description, .plain "version", ⟨"createdAt", "created_at"⟩,
    ⟨"updatedAt", "updated_at"⟩, .plain "document"]

def entries (s : StoredDocument) : List (FieldName × Option Json) :=
  [(.id, some (.string s.id)), (⟨"ownerId", "owner_id"⟩, some (.string s.ownerId)),
    (.name, some (.string s.name)), (.description, some (Json.nullable .string s.description)),
    (.plain "version", some (.int s.version)),
    (⟨"createdAt", "created_at"⟩, some (.string s.createdAt.text)),
    (⟨"updatedAt", "updated_at"⟩, some (.string s.updatedAt.text)),
    (.plain "document", some s.document.toJson)]

theorem layout (s : StoredDocument) :
    Layout fieldNames s.entries (s.header ++ [("document", s.document.toJson)]) where
  written := .refl _
  listed := rfl
  distinct := by decide
  apart := by decide

theorem parse_text (s : StoredDocument) (sound : s.document.Sound) :
    Json.parse s.render = .ok (s.toJson "document") := by
  refine Json.parse_render _ (s.layout.distinctKeys ?_)
  simp only [entries, List.forall_mem_cons, Option.mem_some_iff, forall_eq']
  refine ⟨trivial, trivial, trivial, ?_, trivial, trivial, trivial,
    Document.distinctKeys_toJson sound, nofun⟩
  cases s.description <;> trivial

/-- The text that a stored flowchart is written as bears its version and its flowchart. -/
theorem stamp?_render {s : StoredDocument} (sound : s.document.Sound) :
    stamp? s.render = some (s.version, s.document.reread) := by
  have version : (s.toJson "document").field? "version" = some (.int s.version) := rfl
  have document : (s.toJson "document").field? "document" = some s.document.toJson := rfl
  simp only [stamp?, s.parse_text sound, version, document, Document.check_toJson sound]

/-- A text that is not nested too deep is read if each of its parts is. -/
theorem parse_render {now : Timestamp} {s back : StoredDocument} (sound : s.document.Sound)
    (flat : (s.toJson "document").depth ≤ depthLimit) (checked : check now (s.toJson "document") = .ok back) :
    parse now s.render = .ok back := by
  simp only [parse, s.parse_text sound, if_neg (Nat.not_lt.2 flat), checked]
  rfl

/-- An empty flowchart, as it is first stored. -/
def sample : StoredDocument where
  id := "1"
  ownerId := "owner"
  name := "Plan"
  document := {}
  createdAt := { micros := 0, offset := some 0 }
  updatedAt := { micros := 0, offset := some 0 }

theorem sound_sample : sample.document.Sound := Document.sound_of_read Payload.distinctKeys_empty rfl

theorem exists_parse_sample (now : Timestamp) : ∃ back, parse now sample.render = .ok back := by
  obtain ⟨back, checked⟩ : ∃ back, check now (sample.toJson "document") = .ok back := ⟨_, rfl⟩
  exact ⟨back, parse_render sound_sample (by decide) checked⟩

/-- What is read from a text is read from the value that the text stands for. -/
theorem check_of_parse {now : Timestamp} {text : String} {back : StoredDocument}
    (parsed : parse now text = .ok back) :
    ∃ v, Json.parse text = .ok v ∧ v.depth ≤ depthLimit ∧ check now v = .ok back := by
  unfold parse at parsed
  split at parsed
  next => cases parsed
  next v decoded =>
    split at parsed
    next => cases parsed
    next flat =>
      cases checked : check now v with
      | bad issues =>
        rw [checked] at parsed
        cases parsed
      | ok made =>
        rw [checked] at parsed
        cases parsed
        exact ⟨v, decoded, Nat.not_lt.1 flat, checked⟩

/-- A stored flowchart is read back as it was written, if it is read at all. -/
theorem eq_of_parse_render {now : Timestamp} {s back : StoredDocument} (sound : s.document.Sound)
    (parsed : parse now s.render = .ok back) :
    back.id = s.id ∧ back.ownerId = s.ownerId ∧ back.version = s.version ∧ 0 ≤ s.version ∧
      back.document = s.document.reread := by
  obtain ⟨v, decoded, -, checked⟩ := check_of_parse parsed
  cases (s.parse_text sound).symm.trans decoded
  have layout := s.layout
  simp only [toJson, check, Check.openEntity, Checked.seq_eq_ok, Checked.map_eq_ok] at checked
  obtain ⟨_, updatedAt, ⟨_, createdAt, ⟨_, version, ⟨_, document, ⟨_, description, ⟨_, name, ⟨_, ownerId,
    ⟨id, readId, rfl⟩, readOwner, rfl⟩, -, rfl⟩, -, rfl⟩, readDocument, rfl⟩, readVersion, rfl⟩, -,
    rfl⟩, -, rfl⟩ := checked
  rw [layout.required_eq_ok_iff (v := .string s.id) (by simp [entries])] at readId
  rw [layout.required_eq_ok_iff (v := .string s.ownerId) (by simp [entries])] at readOwner
  rw [layout.required_eq_ok_iff (v := s.document.toJson) (by simp [entries]),
    Document.check_toJson sound] at readDocument
  rw [layout.optional_eq_ok_iff (v := .int s.version) (by simp [entries])] at readVersion
  obtain ⟨n, readVersion, rfl⟩ := readVersion
  obtain ⟨rfl, bound⟩ := Check.atLeast_integer_eq_ok readVersion
  cases readDocument
  exact ⟨Check.text_eq_ok readId, Check.text_eq_ok readOwner, rfl, bound, rfl⟩

/-- Whether a value is read as a stored flowchart does not depend on the time. -/
theorem check_eq_ok_at {now : Timestamp} {v : Json} {back : StoredDocument}
    (checked : check now v = .ok back) (later : Timestamp) : ∃ other, check later v = .ok other := by
  unfold check Check.openEntity at checked ⊢
  split at checked
  next fields =>
    simp only [Checked.seq_eq_ok, Checked.map_eq_ok] at checked ⊢
    obtain ⟨_, updatedAt, ⟨_, createdAt, ⟨_, version, ⟨_, document, ⟨_, description, ⟨_, name, ⟨_, ownerId,
      ⟨id, readId, rfl⟩, readOwner, rfl⟩, readName, rfl⟩, readDescription, rfl⟩, readDocument, rfl⟩,
      readVersion, rfl⟩, readCreated, rfl⟩, readUpdated, rfl⟩ := checked
    exact ⟨_, _, updatedAt, ⟨_, createdAt, ⟨_, version, ⟨_, document, ⟨_, description, ⟨_, name, ⟨_, ownerId,
      ⟨id, readId, rfl⟩, readOwner, rfl⟩, readName, rfl⟩, readDescription, rfl⟩, readDocument, rfl⟩,
      readVersion, rfl⟩, readCreated, rfl⟩, readUpdated, rfl⟩
  next => cases checked

/-- Whether a text is read as a stored flowchart does not depend on the time. -/
theorem parse_eq_ok_at {now : Timestamp} {text : String} {back : StoredDocument}
    (parsed : parse now text = .ok back) (later : Timestamp) : ∃ other, parse later text = .ok other := by
  obtain ⟨v, decoded, flat, checked⟩ := check_of_parse parsed
  obtain ⟨other, again⟩ := check_eq_ok_at checked later
  refine ⟨other, ?_⟩
  simp only [parse, decoded, if_neg (Nat.not_lt.2 flat), again]
  rfl

/-- A version that is read is not negative. -/
theorem version_nonneg_of_parse {now : Timestamp} {text : String} {back : StoredDocument}
    (parsed : parse now text = .ok back) : 0 ≤ back.version := by
  obtain ⟨v, -, -, checked⟩ := check_of_parse parsed
  unfold check Check.openEntity at checked
  split at checked
  next fields =>
    simp only [Checked.seq_eq_ok, Checked.map_eq_ok] at checked
    obtain ⟨_, _, ⟨_, _, ⟨_, version, ⟨_, _, ⟨_, _, ⟨_, _, ⟨_, _, ⟨_, -, rfl⟩, -, rfl⟩, -, rfl⟩, -, rfl⟩, -, rfl⟩,
      readVersion, rfl⟩, -, rfl⟩, -, rfl⟩ := checked
    cases version with
    | none => exact le_rfl
    | some n =>
      obtain ⟨field, -, read⟩ := Record.optional_eq_some readVersion
      exact Check.le_of_atLeast read
  next => cases checked

end StoredDocument

end Flowchart
