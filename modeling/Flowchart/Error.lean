import Flowchart.Schema.Checked

/-!
# Errors

* `ErrorKind`: the errors that callers can tell apart, with the code and the usual message of each.
* `ErrorReport`: an error as it is handed to a caller.
* `Failure`: why a call has no result. Only `reported` failures are meant for the caller's user.
-/

namespace Flowchart

inductive ErrorKind where
  | general
  | duplicateId
  | invalidReference
  | typeMismatch
  | fanInViolation
  | malformedPlan
  | collaboratorUnavailable
  | versionConflict
  | validationRejected
  | notFound
  | serialization
  | configuration
  | indexCorruption
  deriving DecidableEq, Repr

namespace ErrorKind

def all : List ErrorKind :=
  [general, duplicateId, invalidReference, typeMismatch, fanInViolation, malformedPlan,
    collaboratorUnavailable, versionConflict, validationRejected, notFound, serialization,
    configuration, indexCorruption]

def name : ErrorKind → String
  | general => "BlueprintFlowError"
  | duplicateId => "DuplicateId"
  | invalidReference => "InvalidReference"
  | typeMismatch => "TypeMismatch"
  | fanInViolation => "FanInViolation"
  | malformedPlan => "MalformedPlan"
  | collaboratorUnavailable => "CollaboratorUnavailable"
  | versionConflict => "VersionConflict"
  | validationRejected => "ValidationRejected"
  | notFound => "NotFoundError"
  | serialization => "SerializationError"
  | configuration => "ConfigurationError"
  | indexCorruption => "IndexCorruptionError"

def ofName? (name : String) : Option ErrorKind := all.find? fun kind => kind.name == name

def code : ErrorKind → String
  | general => "blueprintflow.error"
  | duplicateId => "blueprintflow.duplicate_id"
  | invalidReference => "blueprintflow.invalid_reference"
  | typeMismatch => "blueprintflow.type_mismatch"
  | fanInViolation => "blueprintflow.fan_in_violation"
  | malformedPlan => "blueprintflow.malformed_plan"
  | collaboratorUnavailable => "blueprintflow.collaborator_unavailable"
  | versionConflict => "blueprintflow.version_conflict"
  | validationRejected => "blueprintflow.validation_rejected"
  | notFound => "blueprintflow.not_found"
  | serialization => "blueprintflow.serialization_error"
  | configuration => "blueprintflow.configuration_error"
  | indexCorruption => "blueprintflow.index_corruption"

/-- The message of an error that was given none. -/
def summary : ErrorKind → String
  | general =>
    "Base error for BlueprintFlow.\n\n    Args:\n        message: Human-readable error message.\n" ++
      "        code: Unique error code for programmatic handling.\n" ++
      "        details: Optional structured data for debugging or client use."
  | duplicateId => "An id supplied by the caller collides with an existing one."
  | invalidReference =>
    "A node, pin, connection, variable or comment reference does not resolve."
  | typeMismatch => "The pin kinds joined by a connection are not compatible."
  | fanInViolation => "The target input pin already holds an incoming data connection."
  | malformedPlan => "The assistant response could not be parsed into the operation grammar."
  | collaboratorUnavailable => "The language-model collaborator failed or timed out."
  | versionConflict =>
    "The base version of a mutation batch is no longer the latest committed version."
  | validationRejected => "A mutation batch produced at least one error-level finding."
  | notFound => "Raised when a stored object is not found."
  | serialization => "Raised when serialization or deserialization fails."
  | configuration => "Raised for configuration or environment errors."
  | indexCorruption => "An internal id index disagrees with the document it indexes."

/-- Every error leaves its caller able to go on, but for a defect of the program itself. -/
def isRecoverable (kind : ErrorKind) : Bool := kind ≠ indexCorruption

/-- The errors of a single edit. -/
def isStructural : ErrorKind → Bool
  | duplicateId | invalidReference | typeMismatch | fanInViolation => true
  | _ => false

end ErrorKind

/-- An error as it is handed to a caller. -/
structure ErrorReport where
  kind : ErrorKind
  code : String
  message : String
  details : Json.Fields

namespace ErrorReport

/-- An empty code or message is replaced by the usual one of the kind. -/
def make (kind : ErrorKind) (message : String) (details : Json.Fields) (code : String) :
    ErrorReport :=
  { kind, details
    code := if code.isEmpty then kind.code else code
    message := if message.isEmpty then kind.summary else message }

/-- A report with the code of its kind. -/
def of (kind : ErrorKind) (message : String) (details : Json.Fields) : ErrorReport :=
  make kind message details ""

def toJson (e : ErrorReport) : Json :=
  .object [("error", .string e.kind.name), ("code", .string e.code), ("message", .string e.message),
    ("details", .object e.details)]

end ErrorReport

/-- Why a call has no result. -/
inductive Failure where
  | reported (report : ErrorReport)
  | invalid (issues : List Issue)
  | badValue (message : String)
  | badKey (message : String)
  | missingFile (message : String)
  | badType
  | badIndex
  | overflow
  | undecodable
  /-- Something was nested deeper than the stack allows. -/
  | tooDeep

end Flowchart
