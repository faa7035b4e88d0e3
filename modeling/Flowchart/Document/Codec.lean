import Flowchart.Document.Check
import Flowchart.Document.Wire
import Flowchart.Error
import Flowchart.Json.Bytes

/-!
# Reading and writing flowcharts

* `Payload`: a flowchart on its way in, as text, bytes or a decoded value.
* `Document.read`: the flowchart of a payload, or the reason why there is none.
* `Document.isStable`: whether writing, reading and writing again gives the same text.
-/

namespace Flowchart

/-- A flowchart on its way in. -/
inductive Payload where
  | text (text : String)
  | bytes (bytes : List UInt8)
  | value (value : Json)

/-- Why a payload holds no flowchart. -/
inductive PayloadError where
  | notJson (mistake : Json.Mistake) (text : List Char)
  | notObject
  | mismatch (issues : List Issue)
  | undecodable

/-- Only bytes that are no text go without a report. -/
def PayloadError.failure : PayloadError → Failure
  | notJson mistake text =>
    .reported (.of .serialization s!"Invalid JSON: {mistake.message text}" [])
  | notObject =>
    .reported (.of .serialization "Document JSON must be an object at the top level." [])
  | mismatch issues =>
    .reported (.of .serialization
      s!"Document does not match the blueprint schema: {issues.length} error(s)"
      [("errors", .array (issues.map Issue.toJsonWithInput))])
  | undecodable => .undecodable

namespace Document

/-- Reads a decoded value. -/
def ofJson (v : Json) : Except PayloadError Document :=
  match v with
  | .object _ =>
    match check v with
    | .ok d => .ok d
    | .bad issues => .error (.mismatch issues)
  | _ => .error .notObject

/-- Reads the text of a payload. -/
def read : Payload → Except PayloadError Document
  | .value v => ofJson v
  | .text text =>
    match Json.parse text with
    | .ok v => ofJson v
    | .error mistake => .error (.notJson mistake text.toList)
  | .bytes bytes =>
    match Json.decodeBytes? bytes with
    | none => .error .undecodable
    | some chars =>
      match Json.read chars with
      | .ok v => ofJson v
      | .error mistake => .error (.notJson mistake chars)

/-- Whether a text that was written reads back and is written the same again. -/
def isStable (d : Document) : Bool :=
  let text := d.render (some 2)
  match read (.text text) with
  | .ok d => d.render (some 2) == text
  | .error _ => false

end Document

end Flowchart
