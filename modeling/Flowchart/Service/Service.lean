import Flowchart.Assistant.Session
import Flowchart.Service.Event
import Flowchart.Storage.Store

/-!
# The flowchart service

The service joins the store, the versions of the flowcharts that are being edited, and the assistant.
A flowchart with errors is never stored. The first edit of a stored flowchart opens a session, which
continues from the stored version; every version it commits is written back. A flowchart that is
replaced or deleted loses its session, and whatever is still under way there is discarded.

Committing and chatting take time, and other calls may come in between. Each is therefore split where
that may happen: `beginCommit` and `finishCommit`, `beginTurn`, `receiveReply`, `concludeTurn` and
`settleTurn`. To end a turn is one step here, although its result reads the latest flowchart and the number of it one
after the other.
-/

namespace Flowchart

/-- The service. Sessions are known by serial numbers; a session that was closed stays under its
number for those who still hold it. -/
structure Service where
  store : Store
  sessions : List (Nat × Session) := []
  /-- The numbers of the open sessions. -/
  live : List (DocumentKey × Nat) := []
  opened : Nat := 0
  events : List Event := []

namespace Service

/-! ### Parts of actions -/

/-- Runs an action of the store. -/
def onStore (action : Act Store α) : Act Service α :=
  ExceptT.mk fun s =>
    let (result, store) := action.run.run s.store
    (result, { s with store })

def publish (e : Event) : Act Service Unit :=
  modify fun s => { s with events := s.events ++ [e] }

/-- The session with a number. -/
def session? (s : Service) (serial : Nat) : Option Session := s.sessions.lookup serial

/-- The number of the open session of a flowchart. -/
def live? (s : Service) (key : DocumentKey) : Option Nat := s.live.lookup key

/-- Puts a session in the place of the one with its number. -/
def putSession (serial : Nat) (session : Session) (s : Service) : Service :=
  { s with sessions := s.sessions.map fun entry =>
      if entry.1 = serial then (serial, session) else entry }

/-- Closes the session of a flowchart, if it is open, and gives up its turn. -/
def close (key : DocumentKey) (s : Service) : Service :=
  match s.live? key with
  | none => s
  | some serial =>
    let s := match s.session? serial with
      | some session => s.putSession serial session.cancel
      | none => s
    { s with live := s.live.filter fun entry => entry.1 ≠ key }

/-- The session with a number; a number that was never given out is a defect. -/
def theSession (serial : Nat) : Act Service Session := do
  match (← get).session? serial with
  | some session => return session
  | none => throw (.reported (.of .indexCorruption "" []))

/-- Runs an action of the session with a number. -/
def onSession (serial : Nat) (action : Act Session α) : Act Service α := do
  let (result, session) := action.out (← theSession serial)
  modify (putSession serial session)
  Act.ofExcept result

/-! ### Flowcharts that are not stored -/

/-- Applies a batch to a flowchart of the caller's. -/
def apply (p : Planner) (d : Document) (operations : List Operation) : Act Service Outcome := do
  let outcome ← Act.ofExcept (p.engine.apply d operations)
  publish (.mutation outcome "ui" none)
  return outcome

/-- Ends a turn about a flowchart of the caller's. -/
def chat (p : Planner) (d : Document) (reply : Reply) : Act Service TurnResult := do
  let result ← Act.ofExcept (p.chat d reply)
  publish (.chatTurn result none)
  return result

/-! ### Stored flowcharts -/

/-- Refuses a flowchart with errors. -/
def requireValid (p : Planner) (d : Document) : Act Service Unit :=
  let report := validate p.catalog d
  if report.hasErrors then
    throw (.reported (rejection report "Refusing to persist a flowchart with validation errors"))
  else pure ()

def save (p : Planner) (owner name : String) (d : Document) (description : Option String) :
    Act Service StoredDocument := do
  requireValid p d
  let stored ← onStore (Store.save owner name d description)
  publish (.saved ⟨owner, stored.id⟩)
  return stored

def fetch (key : DocumentKey) : Act Service StoredDocument := do
  match ← onStore (Store.fetch key.owner key.id) with
  | some stored => return stored
  | none => throw (Store.notFound "Flowchart" key.owner key.id)

def list (owner : String) : Act Service (List StoredDocument) := onStore (Store.list owner)

/-- The latest version of a flowchart, of its session or as it is stored. -/
def latestVersion (key : DocumentKey) : Act Service Int := do
  let s ← get
  match (s.live? key).bind s.session? with
  | some session => return session.timeline.latest
  | none => return (← fetch key).version

/-- Changes a stored flowchart. A new flowchart becomes the next version and closes the session. A
version that the change is based on, if any is named, must be the latest one. -/
def update (p : Planner) (key : DocumentKey) (name : Option String) (d : Option Document)
    (description : Option String) (base : Option Int) : Act Service StoredDocument := do
  if let some d := d then requireValid p d
  let mut version := none
  if d.isSome ∨ base.isSome then
    let latest ← latestVersion key
    if let some base := base then
      if base ≠ latest then throw (TimelineError.stale base latest.toNat).failure
    if d.isSome then version := some (latest + 1)
  let stored ← onStore (Store.update key.owner key.id { name, document := d, description, version })
  if d.isSome then modify (close key)
  publish (.updated key)
  return stored

def delete (key : DocumentKey) : Act Service Bool := do
  let deleted ← onStore (Store.delete key.owner key.id)
  modify (close key)
  if deleted then publish (.deleted key)
  return deleted

/-! ### Sessions -/

/-- The number of the open session of a flowchart; it is opened if need be. -/
def openSession (key : DocumentKey) : Act Service Nat := do
  match (← get).live? key with
  | some serial => return serial
  | none =>
    let stored ← fetch key
    let t ← Act.ofExcept
      ((Timeline.start? stored.document stored.version).mapError TimelineError.failure)
    let s ← get
    set { s with
      sessions := (s.opened, { timeline := t }) :: s.sessions
      live := (key, s.opened) :: s.live
      opened := s.opened + 1 }
    return s.opened

/-- Writes a version back, if its session is open and has not gone on since. -/
def writeBack (key : DocumentKey) (serial : Nat) (version : Option Int) (d : Document) :
    Act Service Unit := do
  let s ← get
  let latest : Option Int := (s.session? serial).map fun session => session.timeline.latest
  if s.live? key = some serial ∧ version = latest then
    let _ ← onStore (Store.update key.owner key.id { document := some d, version })

/-- Opens the session of a flowchart for a batch that is based on its latest version. -/
def beginCommit (key : DocumentKey) (base : Int) : Act Service Nat := do
  let serial ← openSession key
  let session ← theSession serial
  Act.ofExcept ((session.timeline.checkBase base).mapError TimelineError.failure)
  return serial

/-- Applies a batch in a session and writes the new version back. -/
def finishCommit (p : Planner) (key : DocumentKey) (serial : Nat) (operations : List Operation)
    (origin : String) : Act Service Outcome := do
  let base := (← theSession serial).timeline.latest
  let outcome ← onSession serial (Session.onTimeline (Timeline.commit p.engine base operations origin))
  if outcome.committed then writeBack key serial outcome.version outcome.document
  publish (.mutation outcome origin (some key))
  return outcome

/-- Commits a batch to a stored flowchart. -/
def commit (p : Planner) (key : DocumentKey) (base : Int) (operations : List Operation)
    (origin : String) : Act Service Outcome := do
  finishCommit p key (← beginCommit key base) operations origin

/-! ### Turns about stored flowcharts -/

/-- A turn that waits for its reply, and the session it began in. -/
structure SessionTurn where
  key : DocumentKey
  serial : Nat
  turn : PendingTurn

def beginTurn (p : Planner) (key : DocumentKey) (message : String) : Act Service SessionTurn := do
  let serial ← openSession key
  let (session, turn) := (← theSession serial).begin p message
  modify (putSession serial session)
  return ⟨key, serial, turn⟩

/-- Tells of a turn that came to its end. A result that was applied is written back, unless the
flowchart was replaced or deleted meanwhile: then the turn is discarded for what is stored now. -/
def settleTurn (t : SessionTurn) (result : TurnResult) : Act Service TurnResult := do
  if result.applied then
    if (← get).live? t.key ≠ some t.serial then
      match ← onStore (Store.fetch t.key.owner t.key.id) with
      | none => return { explanation := "", document := .empty, discarded := true }
      | some stored =>
        return { explanation := "", document := stored.document, version := some stored.version
                 discarded := true }
    writeBack t.key t.serial result.version result.document
  if !result.discarded then publish (.chatTurn result (some t.key))
  return result

/-- Takes the assistant's reply: a result, or a plan whose batch is still to be committed. -/
def receiveReply (p : Planner) (t : SessionTurn) (reply : Reply) :
    Act Service (TurnResult ⊕ Plan) := do
  match ← onSession t.serial (Session.answer p t.turn reply) with
  | .inl result => return .inl (← settleTurn t result)
  | .inr plan => return .inr plan

/-- Commits the batch of a plan in the session that its turn began in. -/
def concludeTurn (p : Planner) (t : SessionTurn) (plan : Plan) : Act Service TurnResult :=
  onSession t.serial (Session.resolve p t.turn plan)

/-- Commits the batch of a plan and ends the turn. -/
def finishTurn (p : Planner) (t : SessionTurn) (plan : Plan) : Act Service TurnResult := do
  settleTurn t (← concludeTurn p t plan)

/-- A whole turn, with nothing in between. -/
def chatTurn (p : Planner) (key : DocumentKey) (message : String) (reply : Reply) :
    Act Service TurnResult := do
  let t ← beginTurn p key message
  match ← receiveReply p t reply with
  | .inl result => return result
  | .inr plan => finishTurn p t plan

/-- What was said about a stored flowchart. -/
def conversation (key : DocumentKey) : Act Service (List Message) := do
  return (← theSession (← openSession key)).conversation

end Service

end Flowchart
