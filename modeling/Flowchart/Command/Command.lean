import Flowchart.Command.Arguments
import Flowchart.Logging
import Flowchart.Storage.Files

/-!
# Commands

* `Command`: what can be asked for on a command line.
* `Command.parse`: the command of a list of words, or why nothing is to be done.
-/

namespace Flowchart

inductive Command where
  | version
  | nodeTypes
  /-- Validates a flowchart. -/
  | validate (file : String) (asJson : Bool)
  /-- Applies a batch to a flowchart, which goes to `output` or is printed. -/
  | apply (file operations : String) (output : Option String)
  /-- Converts a flowchart of the older format. -/
  | convertLegacy (file : String) (output : Option String)
  deriving DecidableEq, Repr

/-- The commands by name. -/
inductive CommandName where
  | version
  | nodeTypes
  | validate
  | apply
  | convertLegacy
  deriving DecidableEq, Repr

namespace CommandName

def all : List CommandName := [version, validate, apply, nodeTypes, convertLegacy]

def text : CommandName → String
  | version => "version"
  | nodeTypes => "node-types"
  | validate => "validate"
  | apply => "apply"
  | convertLegacy => "convert-legacy"

def summary : CommandName → String
  | version => "Show version information."
  | validate => "Validate a flowchart document. Exits 1 when there are error findings."
  | apply => "Apply a batch of operations to a document, all or nothing."
  | nodeTypes => "List the registered node types."
  | convertLegacy => "Convert a legacy 3-D flowchart to a blueprint document."

def ofText? (text : String) : Option CommandName := all.find? fun name => name.text == text

def help : OptionForm := { name := "--help", takesValue := false }
def json : OptionForm := { name := "--json", takesValue := false }
def output : OptionForm := { name := "--output", letter := some 'o' }

/-- The options of a command. -/
def options : CommandName → List OptionForm
  | version | nodeTypes => [help]
  | validate => [json, help]
  | apply | convertLegacy => [output, help]

/-- The names of the operands, which are all files that have to exist. -/
def operands : CommandName → List String
  | version | nodeTypes => []
  | validate | convertLegacy => ["FILE"]
  | apply => ["FILE", "OPERATIONS_FILE"]

/-- The command of a name with arguments of the right number. -/
def withArguments (name : CommandName) (a : Arguments) : Command :=
  let file := a.operands.headD ""
  match name with
  | version => .version
  | nodeTypes => .nodeTypes
  | validate => .validate file (a.has json.name)
  | apply => .apply file (a.operands.tail.headD "") (a.value? output.name)
  | convertLegacy => .convertLegacy file (a.value? output.name)

end CommandName

/-- Why nothing is to be done. -/
inductive Stop where
  /-- Help was asked for, about a command or all of them. -/
  | help (command : Option CommandName)
  | misuse (misuse : Misuse)
  /-- The level of the log has no meaning. -/
  | badLevel (failure : Failure)

namespace Command

def logLevel : OptionForm := { name := "--log-level" }

/-- The options before the name of the command. -/
def groupOptions : List OptionForm := [logLevel, CommandName.help]

/-- Checks the operands: first those that are there, then their number. -/
def checkOperands (exists? : String → Bool) : List String → List String → Except Misuse Unit
  | name :: names, word :: words =>
    if exists? word then checkOperands exists? names words else .error (.missingFile name word)
  | name :: _, [] => .error (.missingOperand name)
  | [], word :: _ => .error (.extraOperand word)
  | [], [] => .ok ()

/-- A name of a command that looks like an option is one that came too late. -/
def unknownName (word : String) : Stop :=
  if word.startsWith "-" then
    match Arguments.read groupOptions false [word] with
    | .error misuse => .misuse misuse
    | .ok a => if a.has CommandName.help.name then .help none else .misuse (.unknownCommand word)
  else .misuse (.unknownCommand word)

/-- The level of the log that is asked for, or the one of the settings. -/
def levelOf (a : Arguments) (settings : Checked Settings) : Except Failure Int :=
  match a.value? logLevel.name with
  | none | some "" => (settings.toExcept.mapError .invalid).map fun s => s.logLevel.number
  | some text => Logging.levelOfName text

/-- Finds out what is asked for. Help comes before everything but options that cannot be read; the
level of the log is looked at once the command is known, and before its own arguments. -/
def parse (settings : Checked Settings) (exists? : String → Bool) (words : List String) :
    Except Stop (Logging × Command) := do
  let group ← (Arguments.read groupOptions false words).mapError .misuse
  if words.isEmpty then throw (.misuse .missingCommand)
  if group.has CommandName.help.name then throw (.help none)
  match group.operands with
  | [] => throw (.misuse .missingCommand)
  | word :: rest =>
    let some name := CommandName.ofText? word | throw (unknownName word)
    let level ← (levelOf group settings).mapError .badLevel
    let a ← (Arguments.read name.options true rest).mapError .misuse
    if a.has CommandName.help.name then throw (.help (some name))
    (checkOperands exists? name.operands a.operands).mapError .misuse
    return (Logging.configure level, name.withArguments a)

end Command

end Flowchart
