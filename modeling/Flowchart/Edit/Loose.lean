import Flowchart.Catalog.Create
import Flowchart.Edit.Editor
import Flowchart.Text.Digit

/-!
# Edits with unchecked values

Callers that hold an editor may hand it values as they come. A position is read as two numbers, the
looks of a node are set to whatever value is given, and the parts of a new node are checked.
-/

namespace Flowchart

/-- A number as a coordinate; a numeral may have the digits of any number system. -/
def coordinate : Json → Except Failure Float
  | .double x => .ok x
  | .int n => (doubleOfInt? n).elim (.error .overflow) .ok
  | .bool b => .ok (if b then 1 else 0)
  | .string s =>
    match doubleOfText? (String.ofList (plainDigits s.toList)) with
    | some x => .ok x
    | none => .error (.badValue s!"could not convert string to float: {quoted s}")
  | _ => .error .badType

/-- The first two items of a value as a position; the items of a string are its characters. -/
def Point.ofLoose : Json → Except Failure Point
  | .array items => ofItems items
  | .string s => ofItems (s.toList.map fun c => .string c.toString)
  | .object _ => .error (.badKey "0")
  | _ => .error .badType
where
  ofItems (items : List Json) : Except Failure Point := do
    let x ← (items[0]?).elim (.error .badIndex) coordinate
    let y ← (items[1]?).elim (.error .badIndex) coordinate
    return ⟨x, y⟩

namespace Node

/-- The names of the fields that make up a node's looks. -/
def lookNames : List String := ["label", "collapsed", "width", "height"]

def setLabel (v : Json) (node : Node) : Node :=
  { node with label := match v with
    | .null => .null
    | .string s => .value s
    | v => .unlike v }

def setCollapsed (v : Json) (node : Node) : Node :=
  { node with collapsed := match v with
    | .null => .null
    | .bool b => .value b
    | v => .unlike v }

/-- A length as a field of a node's looks. -/
def lengthLook : Json → Look Float
  | .null => .null
  | .double x => .value x
  | v => .unlike v

/-- Sets a field of a node's looks to any value. -/
def setLook (node : Node) (field : String × Json) : Node :=
  match field.1 with
  | "label" => node.setLabel field.2
  | "collapsed" => node.setCollapsed field.2
  | "width" => { node with width := lengthLook field.2 }
  | "height" => { node with height := lengthLook field.2 }
  | _ => node

end Node

namespace Editor

private def lift (edited : Except EditError α) : Except Failure α :=
  edited.mapError EditError.failure

/-- Sets the looks of a node to values that are not checked. -/
def assign (e : Editor) (id : String) (changes : Json.Fields) : Except Failure Editor := do
  let _ ← lift (e.locate id)
  match changes.keys.filter fun key => !Node.lookNames.contains key with
  | [] => lift (e.changeNode id fun node => changes.foldl Node.setLook node)
  | unknown =>
    let names := quotedList (unknown.mergeSort fun a b => !(b < a))
    throw (.badValue s!"Cannot update node fields: {names}")

/-- Moves a node to a position that is not checked. -/
def moveTo (e : Editor) (id : String) (position : Json) : Except Failure Editor := do
  let _ ← lift (e.locate id)
  lift (e.moveNode id (← Point.ofLoose position))

/-- Adds a node of a known type with parts that are not checked, and answers with its id. -/
def addDraft (catalog : Catalog) (e : Editor) (type : String) (draft : NodeDraft) :
    Except Failure (Editor × String) := do
  let unknown := (EditError.unknownType type catalog.ids).failure
  let node ← catalog.build type draft unknown
  return (← lift (e.addNode node), node.id)

end Editor

end Flowchart
