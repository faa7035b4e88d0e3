import Flowchart.Action
import Flowchart.Edit.Batch

/-!
# Versions of a flowchart

`Timeline` keeps every version of a flowchart under a number that grows by one. A change names the
version it is based on, which must be the latest one. Undoing a change stores what was there before it
as a new version, and redoing stores what the change had made.
-/

namespace Flowchart

/-- What applies batches to flowcharts. -/
structure Engine where
  apply : Document → List Operation → Except Failure Outcome

/-- The engine over a catalog; its flowcharts carry their findings. -/
def Engine.standard (catalog : Catalog) : Engine :=
  ⟨fun d operations => (applyBatch catalog true d operations).mapError EditError.failure⟩

/-- How a version came about. -/
inductive RecordKind where
  | commit
  | undo
  | redo
  deriving DecidableEq, Repr

def RecordKind.name : RecordKind → String
  | commit => "commit"
  | undo => "undo"
  | redo => "redo"

/-- The step from one version to the next. An undo or a redo names the version whose change it takes
back or makes again. -/
structure ChangeRecord where
  baseVersion : Nat
  newVersion : Nat
  operations : List Operation
  origin : String
  kind : RecordKind
  reverts : Option Nat

def ChangeRecord.toJson (r : ChangeRecord) : Json :=
  .object [("baseVersion", .int r.baseVersion), ("newVersion", .int r.newVersion),
    ("operations", Operation.listToJson r.operations), ("origin", .string r.origin),
    ("kind", .string r.kind.name), ("reverts", Json.nullable (fun v => .int v) r.reverts)]

/-- Why a timeline refuses a request. -/
inductive TimelineError where
  | negativeBase
  | stale (base : Int) (latest : Nat)
  | noVersion (version : Int)
  | nothingToUndo
  | nothingToRedo
  deriving DecidableEq, Repr

def TimelineError.failure : TimelineError → Failure
  | negativeBase => .badValue "base_version must not be negative"
  | stale base latest =>
    .reported (.of .versionConflict s!"Base version {base} is stale; latest is {latest}"
      [("base_version", .int base), ("latest_version", .int latest)])
  | noVersion version =>
    .reported (.of .notFound s!"Version {version} does not exist" [("version", .int version)])
  | nothingToUndo => .reported (.of .notFound "Nothing to undo" [])
  | nothingToRedo => .reported (.of .notFound "Nothing to redo" [])

/-- All versions of a flowchart. Earlier ones are kept newest first, records oldest first, and the
changes that may be undone or redone with the next one in front. -/
structure Timeline where
  latest : Nat
  current : Document
  earlier : List (Nat × Document) := []
  records : List ChangeRecord := []
  undoable : List ChangeRecord := []
  redoable : List ChangeRecord := []

namespace Timeline

/-- A timeline whose first version has a number. -/
def start (d : Document) (version : Nat) : Timeline := { latest := version, current := d }

def start? (d : Document) (version : Int) : Except TimelineError Timeline :=
  if version < 0 then .error .negativeBase else .ok (start d version.toNat)

/-- All versions, newest first. -/
def snapshots (t : Timeline) : List (Nat × Document) := (t.latest, t.current) :: t.earlier

/-- The flowchart of a version. -/
def at? (t : Timeline) (version : Nat) : Option Document := t.snapshots.lookup version

def get (t : Timeline) (version : Int) : Except TimelineError Document :=
  match if version < 0 then none else t.at? version.toNat with
  | some d => .ok d
  | none => .error (.noVersion version)

/-- The version numbers, oldest first. -/
def versions (t : Timeline) : List Nat := (t.snapshots.map Prod.fst).reverse

def canUndo (t : Timeline) : Bool := !t.undoable.isEmpty

def canRedo (t : Timeline) : Bool := !t.redoable.isEmpty

def checkBase (t : Timeline) (base : Int) : Except TimelineError Unit :=
  if base = t.latest then .ok () else .error (.stale base t.latest)

/-! ### Changes

What a change has written by the time it fails remains, so that each of them has to find out whether it can be made
before it writes. -/

/-- Refuses a base that is not the latest version. -/
def requireBase (base : Int) : Act Timeline Unit := do
  Act.ofExcept (((← getThe Timeline).checkBase base).mapError TimelineError.failure)

/-- The flowchart of a version that an earlier change has recorded. -/
def snapshot (version : Nat) : Act Timeline Document := do
  match (← getThe Timeline).at? version with
  | some d => return d
  | none => throw (.badKey (toString version))

/-- Stores a flowchart as the next version. -/
def store (d : Document) (operations : List Operation) (origin : String) (kind : RecordKind)
    (reverts : Option Nat) : Act Timeline ChangeRecord := do
  let t ← getThe Timeline
  let record : ChangeRecord :=
    { baseVersion := t.latest, newVersion := t.latest + 1, operations, origin, kind, reverts }
  modify fun t => { t with latest := record.newVersion, current := d, earlier := t.snapshots }
  modify fun t => { t with records := t.records ++ [record] }
  return record

/-- Applies a batch to the latest version, which the batch must be based on, and stores what it makes if it is
committed. -/
def commit (engine : Engine) (base : Int) (operations : List Operation) (origin : String) :
    Act Timeline Outcome := do
  requireBase base
  let t ← getThe Timeline
  let o ← Act.ofExcept (engine.apply t.current operations)
  if o.committed then
    let record ← store o.document o.applied origin .commit none
    modify fun t => { t with undoable := record :: t.undoable }
    modify fun t => { t with redoable := [] }
    return { o with version := some record.newVersion }
  else return { o with version := some t.latest }

/-- Stores the flowchart from before the last change that was not undone. -/
def undo (base : Int) (origin : String) : Act Timeline ChangeRecord := do
  requireBase base
  match (← getThe Timeline).undoable with
  | [] => throw TimelineError.nothingToUndo.failure
  | target :: rest =>
    modify fun t => { t with undoable := rest }
    let before ← snapshot target.baseVersion
    let record ← store before [] origin .undo (some target.newVersion)
    modify fun t => { t with redoable := target :: t.redoable }
    return record

/-- Stores the flowchart that the last undone change had made. -/
def redo (base : Int) (origin : String) : Act Timeline ChangeRecord := do
  requireBase base
  match (← getThe Timeline).redoable with
  | [] => throw TimelineError.nothingToRedo.failure
  | target :: rest =>
    modify fun t => { t with redoable := rest }
    let after ← snapshot target.newVersion
    let record ← store after target.operations origin .redo (some target.newVersion)
    modify fun t => { t with undoable := target :: t.undoable }
    return record

end Timeline

end Flowchart
