import Flowchart.Document.Codec
import Flowchart.Json.Measure
import Flowchart.Storage.Timestamp

/-!
# Stored flowcharts

* `StoredDocument`: a flowchart with its owner, name, version and times.
* `StoredDocument.render`, `StoredDocument.parse`: the text of the file that holds one.
-/

namespace Flowchart

structure StoredDocument where
  id : String
  ownerId : String
  name : String
  description : Option String := none
  document : Document
  version : Int := 0
  createdAt : Timestamp
  updatedAt : Timestamp

namespace StoredDocument

/-- Everything but the flowchart. -/
def header (s : StoredDocument) : Json.Fields :=
  [("id", .string s.id), ("ownerId", .string s.ownerId), ("name", .string s.name),
    ("description", Json.nullable .string s.description), ("version", .int s.version),
    ("createdAt", .string s.createdAt.text), ("updatedAt", .string s.updatedAt.text)]

/-- All of it, with the flowchart under a name. -/
def toJson (documentKey : String) (s : StoredDocument) : Json :=
  .object (s.header ++ [(documentKey, s.document.toJson)])

/-- The entry of a list: the flowchart is only counted. -/
def summary (s : StoredDocument) : Json :=
  .object (s.header ++ [("nodeCount", .int s.document.nodes.items.length),
    ("connectionCount", .int s.document.connections.items.length)])

def render (s : StoredDocument) : String := (s.toJson "document").render (some 2)

/-- Reads a stored flowchart. Other keys are ignored, and times that are missing are `now`. -/
def check (now : Timestamp) : Json → Checked StoredDocument :=
  Check.openEntity "StoredDocument" fun r =>
    (fun id ownerId name description document version createdAt updatedAt =>
        { id, ownerId, name, document
          description := description.get?
          version := version.getD 0
          createdAt := createdAt.getD now
          updatedAt := updatedAt.getD now }) <$>
      r.required .id Check.text <*> r.required ⟨"ownerId", "owner_id"⟩ Check.text <*>
      r.required .name Check.name <*> r.slot .description Check.text <*>
      r.required (.plain "document") Document.check <*>
      r.optional (.plain "version") (Check.atLeast 0 Check.integer) <*>
      r.optional ⟨"createdAt", "created_at"⟩ Timestamp.check <*>
      r.optional ⟨"updatedAt", "updated_at"⟩ Timestamp.check

/-- How deep the values of a file may be nested. -/
def depthLimit : Nat := 200

/-- Reads the text of a file, or counts what is wrong with it. A text that is no JSON, or is nested
too deep, has one thing wrong. -/
def parse (now : Timestamp) (text : String) : Except Nat StoredDocument :=
  match Json.parse text with
  | .error _ => .error 1
  | .ok v =>
    if depthLimit < v.depth then .error 1
    else (check now v).toExcept.mapError List.length

end StoredDocument

end Flowchart
