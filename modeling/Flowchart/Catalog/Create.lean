import Flowchart.Catalog.Basic
import Flowchart.Document.Check
import Flowchart.Error

/-!
# Nodes of a known type, from unchecked parts

`NodeDraft` holds the parts of a new node as a caller gave them. `Catalog.build` makes the node of
them, or says which part is wrong.
-/

namespace Flowchart

/-- The parts of a new node, unchecked. -/
structure NodeDraft where
  id : Json
  position : Option Json := none
  label : Json := .null
  data : Json := .null

/-- Values that stand for nothing: null, false, zero and whatever is empty. -/
def Json.isVoid : Json → Bool
  | null | bool false | int 0 | string "" | array [] | object [] => true
  | double x => x == 0
  | _ => false

/-- A node with parts that are checked. Properties that are not an object are no properties. -/
def NodeType.build (t : NodeType) (draft : NodeDraft) : Except Failure Node :=
  let label := match draft.label with
    | .null => .string t.name
    | label => label
  let position := draft.position.getD (.array [.double 0, .double 0])
  let node (data : Json.Fields) : Checked Node :=
    (fun id type position label data =>
        { id, type
          position := some position
          label := .value label
          data := some data
          inputPins := some t.inputPins
          outputPins := some t.outputPins }) <$>
      (Check.name draft.id).under (.key "id") <*> (Check.name (.string t.id)).under (.key "type") <*>
      (Point.check position).under (.key "position") <*> (Check.text label).under (.key "label") <*>
      (Check.dictionary 1 (.object (t.defaultData.merge data))).under (.key "data")
  match draft.data with
  | .object data => (node data).toExcept.mapError .invalid
  | v => if v.isVoid then (node []).toExcept.mapError .invalid else .error .badType

namespace Catalog

/-- A node of a known type; the failure of an unknown one is left to the caller. -/
def build (c : Catalog) (type : String) (draft : NodeDraft) (unknown : Failure) :
    Except Failure Node :=
  match c.find? type with
  | none => .error unknown
  | some t => t.build draft

/-- The failure of an unknown type where no flowchart is concerned. -/
def unknownType (type : String) : Failure := .badKey s!"Node type '{type}' is not registered."

/-- Adds a type. Its id must be free, unless it may replace a type. -/
def register (c : Catalog) (t : NodeType) (replaces : Bool) : Except Failure Catalog :=
  (c.register? t replaces).elim
    (.error (.badValue s!"Node type '{t.id}' is already registered.")) .ok

end Catalog

end Flowchart
