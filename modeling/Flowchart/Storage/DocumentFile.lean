import Flowchart.Document.Codec
import Flowchart.Storage.Files

/-!
# Flowcharts in files

* `unifiedLines`: text whose lines all end in the same way.
* `DocumentFile.load`, `DocumentFile.save`: a flowchart as the text of a file of its own.
-/

namespace Flowchart

/-- Marks the end of every line by one character, however it was marked. -/
def unifiedLines : List Char → List Char
  | '\r' :: '\n' :: rest => '\n' :: unifiedLines rest
  | '\r' :: rest => '\n' :: unifiedLines rest
  | c :: rest => c :: unifiedLines rest
  | [] => []

/-- The text of a file, line by line. -/
def Files.readLines? (files : Files) (path : Path) : Option String :=
  (files.read? path).map fun text => String.ofList (unifiedLines text.toList)

namespace DocumentFile

/-- The flowchart in a file; `shown` is the path as messages show it. -/
def load (files : Files) (path : Path) (shown : String) : Except Failure Document :=
  match files.readLines? path with
  | none => .error (.missingFile s!"File not found: {shown}")
  | some text => (Document.read (.text text)).mapError PayloadError.failure

/-- Writes a flowchart to a file. -/
def save (files : Files) (path : Path) (d : Document) : Files :=
  files.write path (d.render (some 2))

end DocumentFile

end Flowchart
