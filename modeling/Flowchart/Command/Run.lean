import Flowchart.Catalog.Builtin
import Flowchart.Command.Command
import Flowchart.Edit.Batch
import Flowchart.Edit.Grammar
import Flowchart.Legacy
import Flowchart.Storage.DocumentFile
import Flowchart.Validation.Validate

/-!
# Running commands

`Command.run` runs a command line on the files it may name. What is printed is a document or findings
as JSON, or a report for people; errors are told apart from it.
-/

namespace Flowchart

/-- How a command ends. -/
structure CommandResult where
  /-- The exit code: zero for success, two for a command line that cannot be understood. -/
  code : Nat
  output : String := ""
  errors : String := ""
  /-- A failure that no one is told about but by its class. -/
  defect : Option Failure := none
  files : Files

namespace CommandResult

def success (files : Files) (output : String) : CommandResult := { code := 0, output, files }

/-- An error that was expected. -/
def failed (files : Files) (message : String) : CommandResult :=
  { code := 1, errors := "Error: " ++ message ++ "\n", files }

/-- A failure that was not. -/
def broken (files : Files) (failure : Failure) : CommandResult :=
  { code := 1, defect := some failure, files }

/-- The result for a failure: only reported ones are expected. -/
def ofFailure (files : Files) (about : String) : Failure → CommandResult
  | .reported report => failed files (about ++ report.message)
  | failure => broken files failure

def misused (files : Files) (misuse : Misuse) : CommandResult :=
  { code := 2, errors := "Error: " ++ misuse.message ++ "\n", files }

end CommandResult

namespace Command

/-! ### Reports for people -/

def versionText : String := "0.1.0"

def findingLine (f : Finding) : String := f.severity.name ++ " " ++ f.code ++ ": " ++ f.message ++ "\n"

def reportText (r : Report) : String :=
  if r.isClean then "No findings.\n" else String.join (r.findings.map findingLine)

def countLine (d : Document) (r : Report) : String :=
  let nodes := d.nodes.items.length
  let connections := d.connections.items.length
  let errors := r.errors.length
  let warnings := r.warnings.length
  s!"{nodes} node(s), {connections} connection(s): {errors} error(s), {warnings} warning(s)\n"

def pinText (pin : Pin) : String := pin.id ++ ":" ++ pin.kind.name

def nodeTypeLine (t : NodeType) : String :=
  let side (pins : List Pin) := ", ".intercalate (pins.map pinText)
  t.id ++ " " ++ t.name ++ " (" ++ t.category ++ "): " ++ side t.inputPins ++ " -> " ++
    side t.outputPins ++ "\n"

def optionText (form : OptionForm) : String := "[" ++ form.name ++ "]"

def commandLine (name : CommandName) : String :=
  " ".intercalate (name.text :: name.options.map optionText ++ name.operands) ++ "\n  " ++
    name.summary ++ "\n"

def helpText : Option CommandName → String
  | some name => commandLine name
  | none => String.join (CommandName.all.map commandLine)

/-! ### Commands -/

/-- The JSON value in a file. -/
def readJson (files : Files) (file : String) : Except CommandResult Json :=
  let text := (files.readLines? (Path.ofText file)).getD ""
  (Json.parse text).mapError fun mistake =>
    .failed files (file ++ ": invalid JSON: " ++ mistake.message text.toList)

/-- The flowchart in a file. -/
def loadDocument (files : Files) (file : String) : Except CommandResult Document :=
  (DocumentFile.load files (Path.ofText file) file).mapError
    (CommandResult.ofFailure files (file ++ ": "))

/-- Writes a flowchart to a file, or prints it. -/
def emit (files : Files) (d : Document) : Option String → CommandResult
  | none => .success files (d.render (some 2) ++ "\n")
  | some file => .success (DocumentFile.save files (Path.ofText file) d) ("Wrote " ++ file ++ "\n")

def validateFile (catalog : Catalog) (files : Files) (file : String) (asJson : Bool) :
    Except CommandResult CommandResult := do
  let d ← loadDocument files file
  let report := Flowchart.validate catalog d
  let findings : Json :=
    .object [("valid", .bool !report.hasErrors), ("findings", report.toJson)]
  let output :=
    if asJson then findings.render (some 2) ++ "\n" else reportText report ++ countLine d report
  return { code := if report.hasErrors then 1 else 0, output, files }

def applyFile (catalog : Catalog) (files : Files) (file operationsFile : String)
    (output : Option String) : Except CommandResult CommandResult := do
  let d ← loadDocument files file
  let v ← readJson files operationsFile
  let operations ← (Operation.checkList v).toExcept.mapError fun issues =>
    let count := issues.length
    .failed files s!"{operationsFile}: {count} invalid operation(s)"
  let outcome ← (applyBatch catalog true d operations).mapError fun e =>
    .ofFailure files "" e.failure
  if outcome.committed then return emit files outcome.document output
  else
    let result := CommandResult.failed files "Batch rejected; the document was not changed."
    return { result with output := reportText outcome.report }

/-- The entries under a key; there are none if it is absent. -/
def entriesOf (fields : Json.Fields) (key : String) : Json :=
  (Json.Fields.get? key fields).getD (.array [])

def convertFile (catalog : Catalog) (files : Files) (file : String) (output : Option String) :
    Except CommandResult CommandResult := do
  match ← readJson files file with
  | .object fields =>
    let converted := Legacy.convert catalog (entriesOf fields "nodes") (entriesOf fields "connections")
    let d ← converted.mapError fun e => .ofFailure files "" e.failure
    return emit files d output
  | _ => throw (.failed files (file ++ ": expected an object with 'nodes' and 'connections'"))

def perform (catalog : Catalog) (files : Files) : Command → Except CommandResult CommandResult
  | version => .ok (.success files ("Version " ++ versionText ++ "\n"))
  | nodeTypes => .ok (.success files (String.join (catalog.sorted.map nodeTypeLine)))
  | validate file asJson => validateFile catalog files file asJson
  | apply file operations output => applyFile catalog files file operations output
  | convertLegacy file output => convertFile catalog files file output

/-- The result of a command line that asks for nothing to be done. -/
def stopped (files : Files) : Stop → CommandResult
  | .help name => .success files (helpText name)
  | .misuse misuse => .misused files misuse
  | .badLevel failure => .broken files failure

/-- Runs a command line on files. -/
def run (catalog : Catalog) (settings : Checked Settings) (files : Files) (words : List String) :
    CommandResult :=
  let exists? (word : String) : Bool := (files.read? (Path.ofText word)).isSome
  match parse settings exists? words with
  | .error stop => stopped files stop
  | .ok (_, command) =>
    match perform catalog files command with
    | .ok result | .error result => result

end Command

end Flowchart
