import Flowchart.Decimal.Layout
import Flowchart.Error
import Flowchart.Json.Literal

/-!
# Calls to the assistant

A call is bounded by a time limit. Whatever goes wrong in it, the caller learns one thing only: that
the assistant is not available.
-/

namespace Flowchart

/-- An error that a call ended with: its class, and the values it was raised with. -/
structure CallError where
  name : String
  args : List Json

namespace CallError

/-- The values in parentheses. -/
def values (e : CallError) : String := "(" ++ ", ".intercalate (e.args.map Json.literal) ++ ")"

/-- What the error says. -/
def text (e : CallError) : String :=
  match e.args with
  | [] => ""
  | [arg] => if e.name == "KeyError" then arg.literal else arg.plainText
  | _ => e.values

/-- The class with its values. -/
def literal (e : CallError) : String := e.name ++ e.values

/-- A report of another kind that stands for the error, with a code of its own if one is given. -/
def wrap (kind : ErrorKind) (code : String) (details : Json.Fields) (e : CallError) : ErrorReport :=
  .make kind (if e.text.isEmpty then e.name else e.text)
    (details.put "original_exception" (.string e.literal)) code

end CallError

/-- How a call ends. -/
inductive Reply where
  | text (text : String)
  /-- No answer came before the time was up. -/
  | late
  /-- The assistant itself says that it is not available. -/
  | unavailable (message : String)
  | failed (e : CallError)

/-- The report of a call that took too long. -/
def timeoutReport (limit : Float) : ErrorReport :=
  .of .collaboratorUnavailable
    s!"The assistant did not respond within {briefText limit} seconds" [("timeout", .double limit)]

/-- The answer of a call with a time limit in seconds. Nothing can be answered in no time. -/
def answerOf (limit : Float) (reply : Reply) : Except ErrorReport String :=
  if limit ≤ 0 then .error (timeoutReport limit)
  else
    match reply with
    | .text text => .ok text
    | .late => .error (timeoutReport limit)
    | .unavailable message => .error (.of .collaboratorUnavailable message [])
    | .failed e => .error (e.wrap .collaboratorUnavailable "" [])

end Flowchart
