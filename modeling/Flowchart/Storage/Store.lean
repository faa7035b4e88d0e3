import Flowchart.Action
import Flowchart.Storage.Files
import Flowchart.Storage.StoredDocument

/-!
# The store of flowcharts

Each stored flowchart is one file, in a directory of its owner. The store has a clock, which is read
whenever something is written, and gives every new flowchart an id of its own.

The calls are actions on a store: what they have done to it remains even if they fail.
-/

namespace Flowchart

structure Store where
  /-- The directory of the store, as it is shown in messages. -/
  root : String
  files : Files := []
  /-- How often the clock was read, and what it shows at each reading. -/
  readings : Nat := 0
  clock : Nat → Timestamp
  /-- How many ids were given out, and which they are. -/
  issued : Nat := 0
  mint : Nat → String

/-- What a stored flowchart is given anew; the rest stays as it is. -/
structure StoredChanges where
  name : Option String := none
  document : Option Document := none
  description : Option String := none
  version : Option Int := none

namespace Store

/-- The directory of an owner, who must have a name. -/
def ownerPath (owner : String) : Except Failure Path :=
  if owner.isEmpty then .error (.badValue "owner_id must not be empty")
  else .ok [percentEncoded owner]

/-- The file of a flowchart. -/
def path (owner id : String) : Except Failure Path := do
  return (← ownerPath owner) ++ [percentEncoded id ++ ".json"]

/-- A path as it is shown in messages. -/
def shown (s : Store) (path : Path) : String := s.root ++ "/" ++ path.text

/-- The time of the next reading. -/
def now (s : Store) : Timestamp := s.clock (s.readings + 1)

/-- Reads the clock. -/
def tick : Act Store Timestamp := do
  let s ← get
  set { s with readings := s.readings + 1 }
  return s.now

/-- Gives out an id. -/
def issue : Act Store String := do
  let s ← get
  set { s with issued := s.issued + 1 }
  return s.mint (s.issued + 1)

/-- Reads the flowchart that a text of a file holds. -/
def parse (s : Store) (path : Path) (text : String) : Except Failure StoredDocument :=
  (StoredDocument.parse s.now text).mapError fun count =>
    let place := s.shown path
    .reported (.of .serialization s!"Stored document {place} is unreadable: {count} error(s)" [])

/-- Writes a stored flowchart to the file that its own owner and id name. -/
def put (stored : StoredDocument) : Act Store Unit := do
  let path ← Act.ofExcept (path stored.ownerId stored.id)
  modify fun s => { s with files := s.files.write path stored.render }

/-- Saves a new flowchart, which must have a name. -/
def save (owner name : String) (document : Document) (description : Option String) :
    Act Store StoredDocument := do
  let now ← tick
  let id ← issue
  match (Check.name (.string name)).under (.key "name") with
  | .bad issues => throw (.invalid issues)
  | .ok name =>
    let stored : StoredDocument :=
      { id, ownerId := owner, name, description, document, createdAt := now, updatedAt := now }
    put stored
    return stored

/-- The flowchart of an owner with an id. -/
def fetch (owner id : String) : Act Store (Option StoredDocument) := do
  let path ← Act.ofExcept (path owner id)
  let s ← get
  match s.files.read? path with
  | none => return none
  | some text => return some (← Act.ofExcept (s.parse path text))

/-- The latest first. Times with and without an offset cannot be put in order. -/
def sortByTime (found : List StoredDocument) : Except Failure (List StoredDocument) :=
  match found with
  | [] => .ok []
  | first :: rest =>
    if rest.all fun s => first.updatedAt.comparable s.updatedAt then
      .ok (found.mergeSort fun a b => b.updatedAt.instant ≤ a.updatedAt.instant)
    else .error .badType

/-- All flowcharts of an owner, the latest first. -/
def list (owner : String) : Act Store (List StoredDocument) := do
  let directory ← Act.ofExcept (ownerPath owner)
  let s ← get
  let texts := (s.files.inDirectory directory).filter fun file => file.1.endsWith ".json"
  let found ← Act.ofExcept (texts.mapM fun (name, text) => s.parse (directory ++ [name]) text)
  Act.ofExcept (sortByTime found)

def notFound (what owner id : String) : Failure :=
  .reported (.of .notFound s!"{what} '{id}' not found"
    [("owner_id", .string owner), ("document_id", .string id)])

/-- Changes a stored flowchart. The new values are taken as they are. -/
def update (owner id : String) (changes : StoredChanges) : Act Store StoredDocument := do
  match ← fetch owner id with
  | none => throw (notFound "Document" owner id)
  | some current =>
    let now ← tick
    let updated : StoredDocument :=
      { current with
        name := changes.name.getD current.name
        document := changes.document.getD current.document
        description := changes.description.or current.description
        version := changes.version.getD current.version
        updatedAt := now }
    put updated
    return updated

/-- Deletes a flowchart; says whether there was one. -/
def delete (owner id : String) : Act Store Bool := do
  let path ← Act.ofExcept (path owner id)
  let s ← get
  match s.files.read? path with
  | none => return false
  | some _ =>
    set { s with files := s.files.erase path }
    return true

end Store

end Flowchart
