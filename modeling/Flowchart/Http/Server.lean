import Flowchart.Document.Check
import Flowchart.Edit.Grammar
import Flowchart.Http.Message
import Flowchart.Http.Route
import Flowchart.Service.Service
import Flowchart.Text.Blank

/-!
# The HTTP interface

Every request is answered by one call of the service. A request is looked at in a fixed order: its
path and method, whether its body is JSON, who it is from, and whether the body is as it should be.
-/

namespace Flowchart

namespace HttpServer

/-! ### Bodies -/

structure ChatBody where
  message : String
  document : Document
  conversation : List Message

structure CommitBody where
  base : Int
  operations : List Operation

structure SaveBody where
  name : String
  description : Option String
  document : Document

structure UpdateBody where
  name : Option String
  description : Option String
  document : Option Document
  base : Option Int

def messageName : FieldName := .plain "message"
def flowchartName : FieldName := .plain "flowchart"
def operationsName : FieldName := .plain "operations"
def baseName : FieldName := ⟨"baseVersion", "base_version"⟩
def currentName : FieldName := ⟨"currentFlowchart", "current_flowchart"⟩
def historyName : FieldName := ⟨"conversationHistory", "conversation_history"⟩

def chatBody : Json → Checked ChatBody :=
  Check.entity "ChatRequest" [messageName, currentName, historyName] fun r =>
    (fun message document conversation => ⟨message, document, conversation.getD []⟩) <$>
      r.required messageName Check.name <*> r.required currentName Document.check <*>
      r.optional historyName (Check.list Message.check)

def sessionChatBody : Json → Checked String :=
  Check.entity "SessionChatRequest" [messageName] fun r => r.required messageName Check.name

def mutationBody : Json → Checked (Document × List Operation) :=
  Check.entity "MutationRequest" [flowchartName, operationsName] fun r =>
    Prod.mk <$> r.required flowchartName Document.check <*>
      r.required operationsName Operation.checkList

def baseCheck : Json → Checked Int := Check.atLeast 0 Check.integer

def commitBody : Json → Checked CommitBody :=
  Check.entity "CommitRequest" [baseName, operationsName] fun r =>
    CommitBody.mk <$> r.required baseName baseCheck <*>
      r.required operationsName Operation.checkList

def saveBody : Json → Checked SaveBody :=
  Check.entity "SaveRequest" [.name, .description, flowchartName] fun r =>
    (fun name description document => ⟨name, description.get?, document⟩) <$>
      r.required .name Check.name <*> r.slot .description Check.text <*>
      r.required flowchartName Document.check

def updateBody : Json → Checked UpdateBody :=
  Check.entity "UpdateRequest" [.name, .description, flowchartName, baseName] fun r =>
    (fun name description document base =>
        ⟨name.get?, description.get?, document.get?, base.get?⟩) <$>
      r.slot .name Check.name <*> r.slot .description Check.text <*>
      r.slot flowchartName Document.check <*> r.slot baseName baseCheck

/-! ### Answers -/

def outcomeJson (o : Outcome) : Json :=
  .object [("committed", .bool o.committed), ("flowchart", o.document.toJson),
    ("applied", Operation.listToJson o.applied), ("findings", o.report.toJson),
    ("version", Json.nullable .int o.version)]

/-- An outcome, or the error that it becomes if it was not committed. -/
def committed (o : Outcome) : Except Failure Json :=
  match o.rejection? with
  | some report => .error (.reported report)
  | none => .ok (outcomeJson o)

/-- The result of a turn with the conversation so far. -/
def turnJson (result : TurnResult) (conversation : List Message) : Json :=
  match result.toJson with
  | .object fields =>
    .object (fields ++ [("conversationHistory", .array (conversation.map Message.toJson))])
  | v => v

def storedJson (s : StoredDocument) : Json := s.toJson "flowchart"

/-! ### Calls -/

/-- A call of the service and the status of its answer. -/
abbrev Call := Act Service (Nat × Json)

def ok (answer : Act Service Json) : Call := do return (200, ← answer)

/-- What a route does with a body, for routes that have one. -/
def withBody (check : Json → Checked α) (body : Json) (call : α → Call) :
    Except HttpResponse Call :=
  match body with
  | .null => .error (.ofIssues [⟨.missing, [], .null⟩])
  | body =>
    match check body with
    | .ok a => .ok (call a)
    | .bad issues => .error (.ofIssues issues)

/-- The owner that a request is from. -/
def ownerOf (r : HttpRequest) : Except HttpResponse String :=
  let owner := String.ofList (trim isBlank (r.owner.getD "").toList)
  if owner.isEmpty then .error (.detail 401 "Missing X-Owner-Id header") else .ok owner

def chat (p : Planner) (reply : Reply) (b : ChatBody) : Call := ok do
  let result ← Service.chat p b.document reply
  let said := if result.discarded then [] else
    [⟨.user, b.message⟩, ⟨.assistant, result.explanation⟩]
  return turnJson result (b.conversation ++ said)

def sessionChat (p : Planner) (reply : Reply) (key : DocumentKey) (message : String) : Call := ok do
  let result ← Service.chatTurn p key message reply
  return turnJson result (← Service.conversation key)

def validateCall (p : Planner) (d : Document) : Call := ok do
  let report := Flowchart.validate p.catalog d
  return .object [("valid", .bool !report.hasErrors), ("findings", report.toJson),
    ("flowchart", (annotate report d).toJson)]

def update (p : Planner) (key : DocumentKey) (b : UpdateBody) : Call := ok do
  return storedJson (← Service.update p key b.name b.document b.description b.base)

def deleteCall (key : DocumentKey) : Call := ok do
  if ← Service.delete key then
    return .object [("deleted", .bool true), ("id", .string key.id)]
  else
    let id := key.id
    throw (.reported (.of .notFound s!"Flowchart '{id}' not found" [("document_id", .string id)]))

/-- The call that a request makes. The body is looked at only by routes that have one. -/
def callOf (p : Planner) (reply : Reply) (r : HttpRequest) (route : Route) :
    Except HttpResponse Call :=
  match route with
  | .nodeTypes =>
    .ok (ok (pure (.object
      [("nodeTypes", .array (p.catalog.sorted.map NodeType.summary))])))
  | .chat => do withBody chatBody (← r.json) (chat p reply)
  | .validate => do withBody Document.check (← r.json) (validateCall p)
  | .mutate => do
    withBody mutationBody (← r.json) fun (d, operations) => ok do
      Act.ofExcept (committed (← Service.apply p d operations))
  | .list => do
    let owner ← ownerOf r
    return ok do
      return .object [("flowcharts", .array ((← Service.list owner).map StoredDocument.summary))]
  | .save => do
    let body ← r.json
    let owner ← ownerOf r
    withBody saveBody body fun b => do
      return (201, storedJson (← Service.save p owner b.name b.document b.description))
  | .fetch id => do
    let owner ← ownerOf r
    return ok do return storedJson (← Service.fetch ⟨owner, id⟩)
  | .update id => do
    let body ← r.json
    let owner ← ownerOf r
    withBody updateBody body (update p ⟨owner, id⟩)
  | .delete id => do
    let owner ← ownerOf r
    return deleteCall ⟨owner, id⟩
  | .commit id => do
    let body ← r.json
    let owner ← ownerOf r
    withBody commitBody body fun b => ok do
      Act.ofExcept (committed (← Service.commit p ⟨owner, id⟩ b.base b.operations "ui"))
  | .sessionChat id => do
    let body ← r.json
    let owner ← ownerOf r
    withBody sessionChatBody body (sessionChat p reply ⟨owner, id⟩)

/-- Answers a request. The assistant's reply is used if the request asks the assistant. -/
def handle (p : Planner) (reply : Reply) (r : HttpRequest) (s : Service) :
    HttpResponse × Service :=
  match Route.find r.method r.path with
  | .unknown => (.detail 404 "Not Found", s)
  | .otherMethod => (.detail 405 "Method Not Allowed", s)
  | .found route =>
    match callOf p reply r route with
    | .error response => (response, s)
    | .ok call =>
      match call.run.run s with
      | (.ok (status, body), s) => (.answer status body, s)
      | (.error failure, s) => (.ofFailure failure, s)

end HttpServer

end Flowchart
