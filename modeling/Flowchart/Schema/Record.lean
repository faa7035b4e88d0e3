import Flowchart.Schema.Scalar

/-!
# Checks of lists and objects

* `Slot`: a field that may be absent, null or a value.
* `FieldName`: the two spellings of a field; the first is the one that is written.
* `Record`: the fields of an object under a check, read with `required`, `optional` and `slot`.
* `Check.entity`: an object with fields of its own and no others.
-/

namespace Flowchart

/-- A field that may be left out or be null. -/
inductive Slot (α : Type u) where
  | absent
  | null
  | value (a : α)
  deriving DecidableEq, Repr, Inhabited

namespace Slot

/-- The value, whether the field is absent or null otherwise. -/
def get? : Slot α → Option α
  | value a => some a
  | _ => none

/-- A value, or null. -/
def ofOption : Option α → Slot α
  | some a => value a
  | none => null

def isGiven : Slot α → Bool
  | absent => false
  | _ => true

end Slot

/-- The spellings of a field: one with humps, one with underscores. -/
structure FieldName where
  wire : String
  alternate : String

/-- A name that is spelled one way. -/
def FieldName.plain (name : String) : FieldName := ⟨name, name⟩

/-- The fields of an object under a check. -/
structure Record where
  fields : Json.Fields

namespace Record

/-- The spelling under which a field is found, and its value; the first spelling wins. -/
def find? (r : Record) (name : FieldName) : Option (String × Json) :=
  match r.fields.get? name.wire with
  | some v => some (name.wire, v)
  | none => (r.fields.get? name.alternate).map fun v => (name.alternate, v)

def required (r : Record) (name : FieldName) (check : Json → Checked α) : Checked α :=
  match r.find? name with
  | some (key, v) => (check v).under (.key key)
  | none => (Checked.flaw .missing (.object r.fields)).under (.key name.wire)

/-- A field that is left out or has a value. -/
def optional (r : Record) (name : FieldName) (check : Json → Checked α) : Checked (Option α) :=
  match r.find? name with
  | some (key, v) => some <$> (check v).under (.key key)
  | none => .ok none

/-- A field that is left out, null or has a value. -/
def slot (r : Record) (name : FieldName) (check : Json → Checked α) : Checked (Slot α) :=
  match r.find? name with
  | some (_, .null) => .ok .null
  | some (key, v) => Slot.value <$> (check v).under (.key key)
  | none => .ok .absent

/-- Whether a key is the spelling under which a field was found. -/
def isUsed (r : Record) (names : List FieldName) (key : String) : Bool :=
  names.any fun name =>
    name.wire == key || (name.alternate == key && (r.fields.get? name.wire).isNone)

/-- Every key must belong to a field. -/
def noOthers (r : Record) (names : List FieldName) : Checked Unit :=
  match r.fields.filter fun field => !r.isUsed names field.1 with
  | [] => .ok ()
  | others => .bad (others.map fun field => ⟨.unknownKey, [.key field.1], field.2⟩)

end Record

namespace Check

def list (check : Json → Checked α) : Json → Checked (List α)
  | .array items => Checked.items check 0 items
  | v => .flaw .notList v

/-- An object with any keys; every value may be nested as if it stood at `level`. -/
def dictionary (level : Nat) : Json → Checked Json.Fields
  | .object fields =>
    match nestedFields level fields with
    | [] => .ok fields
    | issues => .bad issues
  | v => .flaw .notObject v

/-- The item of a tuple at a position. -/
def item (items : List Json) (position : Nat) (check : Json → Checked α) : Checked α :=
  match items[position]? with
  | some v => (check v).under (.index position)
  | none => (Checked.flaw .missing (.array items)).under (.index position)

/-- An array of at most `size` items, read by `build`. -/
def tuple (size : Nat) (build : List Json → Checked α) : Json → Checked α
  | .array items =>
    if size < items.length then .flaw (.tupleLength size items.length) (.array items)
    else build items
  | v => .flaw .notTuple v

/-- An object with fields of its own; a demand on the whole follows when every field is fine. -/
def entity (name : String) (names : List FieldName) (build : Record → Checked α) :
    Json → Checked α
  | .object fields =>
    (fun a _ => a) <$> build ⟨fields⟩ <*> Record.noOthers ⟨fields⟩ names
  | v => .flaw (.notEntity name) v

/-- An object in which other keys are ignored. -/
def openEntity (name : String) (build : Record → Checked α) : Json → Checked α
  | .object fields => build ⟨fields⟩
  | v => .flaw (.notEntity name) v

end Check

end Flowchart
