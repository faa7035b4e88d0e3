import Flowchart.Error
import Flowchart.Json.Bytes
import Flowchart.Json.Measure
import Flowchart.Storage.Files

/-!
# Requests and responses

* `HttpRequest`, `HttpResponse`: what goes in and out; the body of a request is text.
* `HttpRequest.json`: the JSON value of a body.
* `HttpResponse.ofFailure`: the response for a failure.
-/

namespace Flowchart

structure HttpRequest where
  method : String
  path : String
  owner : Option String := none
  body : Option String := none

/-- The body is a JSON value, and a string if it is plain text. -/
structure HttpResponse where
  status : Nat
  body : Json

namespace HttpResponse

/-- A response that says one thing. -/
def detail (status : Nat) (text : String) : HttpResponse :=
  ⟨status, .object [("detail", .string text)]⟩

/-- What callers get to see of a defect. -/
def internalError : HttpResponse := ⟨500, .string "Internal Server Error"⟩

/-- The response with an answer. Numbers that have no numeral are left out of it. -/
def answer (status : Nat) (body : Json) : HttpResponse := ⟨status, body.finitePart⟩

/-- The status for a kind of errors. -/
def statusOf : ErrorKind → Nat
  | .notFound => 404
  | .duplicateId | .versionConflict => 409
  | .collaboratorUnavailable => 503
  | .invalidReference | .typeMismatch | .fanInViolation | .validationRejected | .malformedPlan
  | .serialization => 422
  | .general | .configuration | .indexCorruption => 500

/-- Only reported failures are shown, as long as their numbers all have numerals. -/
def ofFailure : Failure → HttpResponse
  | .reported report =>
    if report.toJson.isFinite then ⟨statusOf report.kind, report.toJson⟩ else internalError
  | _ => internalError

/-- A value that is no object is told apart from one that is none of an entity. -/
def asAttribute (issue : Issue) : Issue :=
  match issue.flaw with
  | .notEntity _ => { issue with flaw := .notTaggable }
  | _ => issue

/-- The response for a body that is not as it should be. The inputs at fault are sent along, so they
have to have numerals too. -/
def ofIssues (issues : List Issue) : HttpResponse :=
  if issues.all fun issue => issue.input.isFinite then
    let shown := issues.map fun issue => (asAttribute (issue.under (.key "body"))).toJson
    ⟨422, .object [("detail", .array shown)]⟩
  else internalError

/-- The response for a body that is no JSON, with the place of the mistake. -/
def notJson (offset : Nat) : HttpResponse :=
  ⟨422, .object [("detail", .array [.object [("type", .string "json_invalid"),
    ("loc", .array [.string "body", .int offset]), ("msg", .string "JSON decode error")]])]⟩

end HttpResponse

namespace HttpRequest

/-- The value of the body; null if there is none. -/
def json (r : HttpRequest) : Except HttpResponse Json :=
  match r.body with
  | none | some "" => .ok .null
  | some text =>
    match Json.decodeBytes? text.toUTF8.toList with
    | none => .error (.detail 400 "There was an error parsing the body")
    | some chars => (Json.read chars).mapError fun mistake => .notJson mistake.offset

end HttpRequest

end Flowchart
